/-
Inspectors: saving a value as a list of wire values, and loading it into a place.

A value is loaded into a place that holds another value before, and an inspector need not
visit every member; the places of the elements of a sequence are in a memory of a type `μ`.
`merge mem x place` is what the place holds after `x` was saved and loaded into it.  An
inspector carries the proof that it loads what it has saved.
-/
import Mathlib.Tactic

namespace TradingEngine.Lib

/-- How values of a type are saved, and loaded into a place. -/
structure Inspector (σ μ T : Type*) where
  save : T → List σ
  load : μ → T → List σ → Option (T × List σ)
  /-- What a place holds after the first value was loaded into it. -/
  merge : μ → T → T → T
  load_save : ∀ mem x place rest,
    load mem place (save x ++ rest) = some (merge mem x place, rest)

namespace Inspector

variable {σ μ T M : Type*}

lemma load_save_nil (I : Inspector σ μ T) (mem : μ) (x place : T) :
    I.load mem place (I.save x) = some (I.merge mem x place, []) := by
  have hload := I.load_save mem x place []
  rwa [List.append_nil] at hload

/-! ### Members -/

/-- One wire value. -/
def value (put : T → σ) (get : σ → Option T) (hget : ∀ x, get (put x) = some x) :
    Inspector σ μ T where
  save x := [put x]
  load _ _
    | [] => none
    | v :: rest => (get v).map fun x => (x, rest)
  merge _ x _ := x
  load_save _ x _ _ := by simp [hget]

@[simp] lemma merge_value (put : T → σ) (get : σ → Option T) (hget : ∀ x, get (put x) = some x)
    (mem : μ) (x place : T) : (value put get hget).merge mem x place = x := rfl

/-- No member is visited. -/
def nothing : Inspector σ μ T where
  save _ := []
  load _ place rest := some (place, rest)
  merge _ _ place := place
  load_save _ _ _ _ := rfl

@[simp] lemma merge_nothing (mem : μ) (x place : T) :
    (nothing : Inspector σ μ T).merge mem x place = place := rfl

/-- One more member is visited, after the others. -/
def andMember (I : Inspector σ μ T) (J : Inspector σ μ M) (get : T → M) (set : T → M → T) :
    Inspector σ μ T where
  save x := I.save x ++ J.save (get x)
  load mem place values :=
    (I.load mem place values).bind fun (place, values) =>
      (J.load mem (get place) values).map fun (m, rest) => (set place m, rest)
  merge mem x place :=
    let place := I.merge mem x place
    set place (J.merge mem (get x) (get place))
  load_save mem x place rest := by
    simp only [List.append_assoc, I.load_save, Option.bind_some, J.load_save, Option.map_some]

@[simp] lemma merge_andMember (I : Inspector σ μ T) (J : Inspector σ μ M) (get : T → M)
    (set : T → M → T) (mem : μ) (x place : T) : (I.andMember J get set).merge mem x place =
      set (I.merge mem x place) (J.merge mem (get x) (get (I.merge mem x place))) := rfl

/-! ### Sequences -/

/-- The elements one after another; the `i`-th is loaded into the place `place i`. -/
def loadElements (I : Inspector σ μ T) (mem : μ) (place : ℕ → T) :
    ℕ → List σ → Option (List T × List σ)
  | 0, values => some ([], values)
  | n + 1, values =>
    (I.load mem (place 0) values).bind fun (x, values) =>
      (loadElements I mem (fun i => place (i + 1)) n values).map fun (xs, rest) =>
        (x :: xs, rest)

lemma loadElements_save (I : Inspector σ μ T) (mem : μ) (place : ℕ → T) (xs : List T)
    (rest : List σ) : I.loadElements mem place xs.length (xs.flatMap I.save ++ rest) =
      some (xs.mapIdx fun i x => I.merge mem x (place i), rest) := by
  induction xs generalizing place with
  | nil => rfl
  | cons x xs ih =>
    simp only [List.flatMap_cons, List.append_assoc, List.length_cons, loadElements, I.load_save,
      Option.bind_some, ih, Option.map_some, List.mapIdx_cons]

/-- The size and then the elements; what the place held is dropped. -/
def vector (I : Inspector σ μ T) (putSize : ℕ → σ) (getSize : σ → Option ℕ)
    (hsize : ∀ n, getSize (putSize n) = some n) (place : μ → ℕ → T) :
    Inspector σ μ (List T) where
  save xs := putSize xs.length :: xs.flatMap I.save
  load mem _
    | [] => none
    | v :: values => (getSize v).bind fun n => I.loadElements mem (place mem) n values
  merge mem xs _ := xs.mapIdx fun i x => I.merge mem x (place mem i)
  load_save mem xs _ rest := by
    simp only [List.cons_append, hsize, Option.bind_some, loadElements_save]

/-- A sequence comes back when each element does from its own place. -/
lemma merge_vector_eq_iff (I : Inspector σ μ T) (putSize : ℕ → σ) (getSize : σ → Option ℕ)
    (hsize : ∀ n, getSize (putSize n) = some n) (place : μ → ℕ → T) (mem : μ) (xs xs' : List T) :
    (I.vector putSize getSize hsize place).merge mem xs xs' = xs ↔
      ∀ i (h : i < xs.length), I.merge mem xs[i] (place mem i) = xs[i] := by
  show xs.mapIdx _ = xs ↔ _
  constructor
  · intro heq i hi
    have helem := congrArg (fun l => l[i]?) heq
    simpa [hi] using helem
  · intro hall
    refine List.ext_getElem (by simp) fun i hi hi' => ?_
    rw [List.getElem_mapIdx]
    exact hall i hi'

end Inspector

end TradingEngine.Lib
