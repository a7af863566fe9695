/-
The prices that the orders start from (`order_generator.cc`, `create_initial_prices.cc`).

One program draws a price for every symbol and writes them to a file of JSON; the program that
creates the orders reads the file.  The random numbers are given, and so are the texts of doubles.
-/
import TradingEngine.Common.Json
import TradingEngine.OrderGenerator.CreateOrders

namespace TradingEngine.OrderGenerator

open Lib

instance : LinearOrder I32 := inferInstanceAs (LinearOrder {x : ℤ // IsInt32 x})

/-- A `std::map<int, int>` from symbols to prices. -/
abbrev InitialPrices := {prices : List (I32 × I32) // SortedMap.Sorted prices}

namespace InitialPrices

/-- The empty map. -/
def empty : InitialPrices := ⟨[], .nil⟩

/-- `all_initial_prices[symbol] = price`. -/
def assign (prices : InitialPrices) (symbol price : I32) : InitialPrices :=
  ⟨SortedMap.assign symbol price prices.1, prices.2.assign symbol price⟩

end InitialPrices

/-! ### The file -/

/-- `initial_price_json[key] = price`; a null becomes an object. -/
def setPrice (json : Json) (key : String) (price : I32) : Except Exception Json :=
  match json with
  | .null => .ok (.object [(key, .number price)])
  | .object members => .ok (.object (SortedMap.assign key (.number price) members))
  | _ => .error .typeError

/-- `ImportInitialPriceToJsonFile`: the text of the file. -/
def importInitialPriceToJsonFile (dumpFloat : ℚ → List Char) (initialPrices : InitialPrices) :
    Except Exception String := do
  let json ← initialPrices.1.foldlM
    (fun json initialPrice => setPrice json (toString (initialPrice.1 : ℤ)) initialPrice.2) .null
  return json.dump dumpFloat ++ "\n"

/-- `items()`: the elements with their keys; those of an array are its indices. -/
def items : Json → List (String × Json)
  | .null => []
  | .object members => members
  | .array elements => elements.zipIdx.map fun element => (toString element.2, element.1)
  | value => [("", value)]

/-- `GetAllInitialPrice`, with the text of the file. -/
def getAllInitialPrice (file : String) : Except Exception InitialPrices := do
  let initialPrices ← Json.extract file
  (items initialPrices).foldlM (fun allInitialPrices initialPrice => do
    let symbol ← stoi initialPrice.1
    let price ← initialPrice.2.getInt
    return allInitialPrices.assign symbol price) .empty

/-! ### The round trip -/

/-- A price as a member of the object in the file. -/
def priceMember (price : I32 × I32) : String × Json :=
  (toString (price.1 : ℤ), .number price.2)

lemma symbolText_injective : Function.Injective fun symbol : I32 => toString (symbol : ℤ) :=
  Decimal.toString_injective.comp Subtype.val_injective

lemma priceMember_injective : Function.Injective priceMember := by
  intro p q h
  have hkey : toString (p.1 : ℤ) = toString (q.1 : ℤ) := congrArg Prod.fst h
  have hvalue : Json.number p.2 = .number q.2 := congrArg Prod.snd h
  have hprice := Json.getInt_number p.2
  rw [hvalue, Json.getInt_number] at hprice
  exact Prod.ext (symbolText_injective hkey) (Except.ok.inj hprice).symm

/-- The object in the file has the prices as its members. -/
lemma foldlM_setPrice (prices : List (I32 × I32)) (members : List (String × Json)) :
    prices.foldlM (fun json initialPrice =>
        setPrice json (toString (initialPrice.1 : ℤ)) initialPrice.2) (.object members) =
      .ok (.object ((prices.map priceMember).foldl
        (fun map entry => SortedMap.assign entry.1 entry.2 map) members)) := by
  induction prices generalizing members with
  | nil => rfl
  | cons price prices ih => exact ih _

/-- What is in the file: nothing, or an object. -/
def fileValue (prices : InitialPrices) : Json :=
  if prices.1 = [] then .null else .object (SortedMap.ofList (prices.1.map priceMember))

lemma import_eq (dumpFloat : ℚ → List Char) (prices : InitialPrices) :
    importInitialPriceToJsonFile dumpFloat prices =
      .ok ((fileValue prices).dump dumpFloat ++ "\n") := by
  obtain ⟨prices, hprices⟩ := prices
  cases prices with
  | nil => rfl
  | cons price prices =>
    have hfold := foldlM_setPrice prices [priceMember price]
    show ((prices.foldlM _ (Json.object [priceMember price])) >>= _) = _
    rw [hfold]
    rfl

/-- The members of the object are read back as prices. -/
lemma foldlM_assign (prices : List (I32 × I32)) (all : InitialPrices) :
    (prices.map priceMember).foldlM (fun (allInitialPrices : InitialPrices) initialPrice => do
      let symbol ← stoi initialPrice.1
      let price ← initialPrice.2.getInt
      return allInitialPrices.assign symbol price) all =
        .ok (prices.foldl (fun all price => all.assign price.1 price.2) all) := by
  induction prices generalizing all with
  | nil => rfl
  | cons price prices ih =>
    rw [List.map_cons, List.foldlM_cons, priceMember, stoi_toString]
    simp only [Json.getInt_number]
    exact ih _

lemma foldl_assign_val (prices : List (I32 × I32)) (all : InitialPrices) :
    (prices.foldl (fun all price => all.assign price.1 price.2) all).1 =
      prices.foldl (fun map entry => SortedMap.assign entry.1 entry.2 map) all.1 := by
  induction prices generalizing all with
  | nil => rfl
  | cons price prices ih => exact ih _

/-- The members of the object are the prices in another order. -/
lemma members_perm (prices : InitialPrices) :
    (SortedMap.ofList (prices.1.map priceMember)).Perm (prices.1.map priceMember) := by
  -- no two symbols have the same text
  have hkeys : ((prices.1.map priceMember).map Prod.fst).Nodup := by
    have htexts : (prices.1.map priceMember).map Prod.fst =
        (prices.1.map Prod.fst).map fun symbol : I32 => toString (symbol : ℤ) := by
      rw [List.map_map, List.map_map]
      rfl
    rw [htexts]
    exact prices.2.nodup.map symbolText_injective
  exact SortedMap.ofList_perm hkeys

lemma items_fileValue (prices : InitialPrices) :
    items (fileValue prices) = SortedMap.ofList (prices.1.map priceMember) := by
  rw [fileValue]
  split_ifs with hnil
  · rw [hnil]
    rfl
  · rfl

lemma canonical_fileValue (prices : InitialPrices) : (fileValue prices).Canonical := by
  rw [fileValue]
  split_ifs with hnil
  · exact .null
  · refine .object (SortedMap.sorted_ofList _) fun m hm => ?_
    obtain ⟨price, -, rfl⟩ := List.mem_map.1 ((members_perm prices).mem_iff.1 hm)
    exact .number (Json.isInteger_val price.2)

/-- The file begins with the text of its value. -/
lemma extract_file (dumpFloat : ℚ → List Char) {j : Json} (h : j.Canonical) :
    Json.extract (j.dump dumpFloat ++ "\n") = .ok j := by
  have htext : j.dump dumpFloat ++ "\n" = String.ofList (j.dumpChars dumpFloat ++ ['\n']) := by
    rw [Json.dump, String.ofList_append]
  rw [htext]
  exact Json.extract_of_isValue (Json.isValue_dumpChars dumpFloat h) (Reader.next_cons.2 rfl)

lemma readBack_eq (dumpFloat : ℚ → List Char) (prices : InitialPrices) :
    (importInitialPriceToJsonFile dumpFloat prices >>= getAllInitialPrice) = .ok prices := by
  -- the members of the file are the prices in some order
  obtain ⟨inFile, hinFile⟩ : ∃ inFile : List (I32 × I32),
      inFile.map priceMember = SortedMap.ofList (prices.1.map priceMember) := by
    have hmembers : ∀ m ∈ SortedMap.ofList (prices.1.map priceMember),
        m ∈ Set.range priceMember := by
      intro m hm
      obtain ⟨price, -, rfl⟩ := List.mem_map.1 ((members_perm prices).mem_iff.1 hm)
      exact ⟨price, rfl⟩
    have hrange := Set.range_list_map priceMember
    exact (Set.ext_iff.1 hrange _).2 hmembers
  have hperm : inFile.Perm prices.1 := by
    rw [← List.map_perm_map_iff priceMember_injective, hinFile]
    exact members_perm prices
  rw [import_eq]
  show (Json.extract ((fileValue prices).dump dumpFloat ++ "\n") >>= fun initialPrices => _) = _
  rw [extract_file dumpFloat (canonical_fileValue prices)]
  show (items (fileValue prices)).foldlM _ InitialPrices.empty = _
  rw [items_fileValue, ← hinFile, foldlM_assign]
  refine congrArg Except.ok (Subtype.ext ?_)
  rw [foldl_assign_val]
  exact SortedMap.ofList_eq_of_perm hperm prices.2

/-- **The prices come back from the file**, for every map of prices, although the file has them in
the order of their symbols as texts. -/
theorem getAllInitialPrice_import (dumpFloat : ℚ → List Char) (prices : InitialPrices) :
    ∃ file, importInitialPriceToJsonFile dumpFloat prices = .ok file ∧
      getAllInitialPrice file = .ok prices := by
  have hback := readBack_eq dumpFloat prices
  rw [import_eq] at hback
  exact ⟨_, import_eq dumpFloat prices, hback⟩

/-! ### Orders with these prices -/

/-- `GenerateInitialPrice`, with the price that is drawn for each symbol; `symbol_id_max + 1` is
taken in the integers. -/
def generateInitialPrice (symbolIdMin symbolIdMax : I32) (draw : I32 → I32) : InitialPrices :=
  (List.range ((symbolIdMax : ℤ) + 1 - symbolIdMin).toNat).foldl (fun allInitialPrices (i : ℕ) =>
    allInitialPrices.assign (.ofInt (symbolIdMin + i)) (draw (.ofInt (symbolIdMin + i)))) .empty

/-- What is drawn for an order: its place among the symbols, and the other members. -/
structure OrderDraw where
  userId : I32
  place : ℕ
  amount : I32
  tradingSide : I32

/-- The constructor of `Order`; a symbol and a price are only set if there is such a place. -/
def newOrder (allInitialPrices : InitialPrices) (d : OrderDraw) : Option Order :=
  allInitialPrices.1[d.place]?.map fun item =>
    ⟨d.userId, item.1, item.2, d.amount, d.tradingSide⟩

/-- The prices are drawn and written to the file; the orders are drawn from what the file has. -/
def Created (dumpFloat : ℚ → List Char) (symbolIdMin symbolIdMax : I32) (draw : I32 → I32)
    (orders : List Order) : Prop :=
  ∃ (file : String) (allInitialPrices : InitialPrices) (draws : List OrderDraw),
    importInitialPriceToJsonFile dumpFloat (generateInitialPrice symbolIdMin symbolIdMax draw) =
      .ok file ∧
    getAllInitialPrice file = .ok allInitialPrices ∧
    (∀ d ∈ draws, (d.tradingSide : ℤ) = 1 ∨ (d.tradingSide : ℤ) = 2) ∧
    draws.mapM (newOrder allInitialPrices) = some orders

/-- What is in the file are the prices that were drawn. -/
lemma created_of_draws (dumpFloat : ℚ → List Char) {symbolIdMin symbolIdMax : I32}
    {draw : I32 → I32} {draws : List OrderDraw} {orders : List Order}
    (hsides : ∀ d ∈ draws, (d.tradingSide : ℤ) = 1 ∨ (d.tradingSide : ℤ) = 2)
    (hdraws : draws.mapM (newOrder (generateInitialPrice symbolIdMin symbolIdMax draw)) =
      some orders) : Created dumpFloat symbolIdMin symbolIdMax draw orders := by
  have hback := readBack_eq dumpFloat (generateInitialPrice symbolIdMin symbolIdMax draw)
  rw [import_eq] at hback
  exact ⟨_, _, draws, import_eq dumpFloat _, hback, hsides, hdraws⟩

/-- Every symbol has the price that was drawn for it. -/
lemma mem_generateInitialPrice {symbolIdMin symbolIdMax : I32} {draw : I32 → I32}
    {price : I32 × I32} (h : price ∈ (generateInitialPrice symbolIdMin symbolIdMax draw).1) :
    (symbolIdMin : ℤ) ≤ price.1 ∧ (price.1 : ℤ) ≤ symbolIdMax ∧ price.2 = draw price.1 := by
  have hlow := symbolIdMin.2.1
  have hhigh := symbolIdMax.2.2
  -- what is said of a price holds of all of them after each round of the loop
  have hall : ∀ (ks : List ℕ) (all : InitialPrices), (∀ k ∈ ks,
      k < ((symbolIdMax : ℤ) + 1 - symbolIdMin).toNat) →
      (∀ p ∈ all.1, (symbolIdMin : ℤ) ≤ p.1 ∧ (p.1 : ℤ) ≤ symbolIdMax ∧ p.2 = draw p.1) →
      ∀ p ∈ (ks.foldl (fun (all : InitialPrices) (i : ℕ) =>
        all.assign (.ofInt (symbolIdMin + i)) (draw (.ofInt (symbolIdMin + i)))) all).1,
        (symbolIdMin : ℤ) ≤ p.1 ∧ (p.1 : ℤ) ≤ symbolIdMax ∧ p.2 = draw p.1 := by
    intro ks
    induction ks with
    | nil => exact fun all _ hprices => hprices
    | cons k ks ih =>
      intro all hks hprices
      refine ih _ (fun k' hk' => hks k' (List.mem_cons_of_mem k hk')) fun p hp => ?_
      rcases SortedMap.mem_of_mem_assign hp with rfl | hp
      · have hk := hks k List.mem_cons_self
        have hsymbol : (I32.ofInt ((symbolIdMin : ℤ) + k) : ℤ) = symbolIdMin + k := by
          exact toInt_eq ⟨by omega, by omega⟩
        refine ⟨?_, ?_, rfl⟩
        · show (symbolIdMin : ℤ) ≤ (I32.ofInt _ : ℤ)
          rw [hsymbol]
          omega
        · show (I32.ofInt _ : ℤ) ≤ (symbolIdMax : ℤ)
          rw [hsymbol]
          omega
      · exact hprices p hp
  rw [generateInitialPrice] at h
  refine hall _ _ (fun k hk => List.mem_range.1 hk) (fun p hp => ?_) price h
  cases hp

lemma exists_of_mapM {α β : Type} {f : α → Option β} {xs : List α} {ys : List β}
    (h : xs.mapM f = some ys) {y : β} (hy : y ∈ ys) : ∃ x ∈ xs, f x = some y := by
  induction xs generalizing ys with
  | nil =>
    cases h
    cases hy
  | cons x xs ih =>
    rw [List.mapM_cons] at h
    obtain ⟨y', hy', h⟩ := Option.bind_eq_some_iff.1 h
    obtain ⟨ys', hys', heq⟩ := Option.bind_eq_some_iff.1 h
    cases heq
    rcases List.mem_cons.1 hy with rfl | hy
    · exact ⟨x, List.mem_cons_self, hy'⟩
    · obtain ⟨x', hx', hfx⟩ := ih hys' hy
      exact ⟨x', List.mem_cons_of_mem x hx', hfx⟩

/-- **The orders have the symbols and the prices that were drawn**, and a side. -/
theorem Created.mem {dumpFloat : ℚ → List Char} {symbolIdMin symbolIdMax : I32}
    {draw : I32 → I32} {orders : List Order}
    (h : Created dumpFloat symbolIdMin symbolIdMax draw orders) {order : Order}
    (horder : order ∈ orders) :
    (symbolIdMin : ℤ) ≤ order.symbol ∧ (order.symbol : ℤ) ≤ symbolIdMax ∧
      order.price = draw order.symbol ∧
      ((order.tradingSide : ℤ) = 1 ∨ (order.tradingSide : ℤ) = 2) := by
  obtain ⟨file, all, draws, hfile, hall, hsides, hdraws⟩ := h
  have hback := readBack_eq dumpFloat (generateInitialPrice symbolIdMin symbolIdMax draw)
  rw [hfile] at hback
  -- what the second program reads is what the first one has drawn
  have hprices : all = generateInitialPrice symbolIdMin symbolIdMax draw :=
    Except.ok.inj (hall.symm.trans hback)
  obtain ⟨d, hd, hnew⟩ : ∃ d ∈ draws, newOrder all d = some order :=
    exists_of_mapM hdraws horder
  obtain ⟨item, hitem, rfl⟩ := Option.map_eq_some_iff.1 hnew
  rw [hprices] at hitem
  obtain ⟨hlow, hhigh, hprice⟩ := mem_generateInitialPrice (List.mem_of_getElem? hitem)
  exact ⟨hlow, hhigh, hprice, hsides d hd⟩

end TradingEngine.OrderGenerator
