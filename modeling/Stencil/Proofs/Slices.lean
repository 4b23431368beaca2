/-
# Slices

A slice is asked for by a start, which counts from the end if it is negative, and
perhaps a length. It takes the items at the places from the start on, up to the
length if there is one; the places before the beginning and behind the end are
empty. What is computed is a window between two positions, and positions that are
negative count from the end, so a slice that starts before the end and reaches it
would stop at the beginning: that is why it has no stop (`Filter.sliceStop`).

Start and length are read from a text. Integers with more digits than a numeral may
have are not read, and then there is no slice.

Key definitions: `Filter.placed`, `Filter.inSlice`, `Filter.sliced`, `Filter.Asks`,
`Filter.sliceText`.
Key theorems: `Filter.window_eq_sliced`, `Filter.sliceBounds?_sliceText`,
`Filter.slice_is_window`, `Filter.long_start_not_sliced`.
-/
import Stencil.Filter.Builtin
import Stencil.Proofs.Decimal

namespace Stencil.Filter

open Number

/-- A place, counted from the end if it is negative; it may lie outside of the items. -/
def placed (count : Nat) (i : Int) : Int :=
  if 0 ≤ i then i else count + i

/-- Whether a slice of some items takes the one at a place. -/
def inSlice (start : Int) (length : Option Nat) (count place : Nat) : Bool :=
  decide (placed count start ≤ place) &&
    length.all fun (n : Nat) => decide (place < placed count start + n)

/-- The items at the places that a slice takes, in order. -/
def sliced {α : Type} (start : Int) (length : Option Nat) (items : List α) : List α :=
  (items.zipIdx.filter fun p => inSlice start length items.length p.2).map Prod.fst

/-- An argument asks for a slice. -/
def Asks (argument : Option String) (start : Int) (length : Option Nat) : Prop :=
  (given argument).bind sliceBounds? = some (start, length.map Int.ofNat)

/-- The text that asks for a slice. -/
def sliceText (start : Int) (length : Option Nat) : String :=
  String.ofList (ofInt start ++ match length with
    | some n => ',' :: ofNat n
    | none => [])

/-- One of the integers of a slice is too long to be read. -/
def hasLong (start : Int) (length : Option Nat) : Bool :=
  isLong start || length.any fun (n : Nat) => isLong n

/-! ### The window -/

/-- The items from one place up to another are those at the places between them. -/
theorem filter_zipIdx {α : Type} (low high : Nat) (items : List α) (first : Nat) :
    ((items.zipIdx first).filter fun p => decide (low ≤ p.2 ∧ p.2 < high)).map Prod.fst =
      (items.drop (low - first)).take (high - max low first) := by
  induction items generalizing first with
  | nil => simp
  | cons x items ih =>
    rw [List.zipIdx_cons, List.filter_cons, apply_ite (List.map Prod.fst), List.map_cons, ih]
    simp only [decide_eq_true_eq]
    rcases Nat.lt_or_ge first low with before | reached
    · -- The window begins behind the first item.
      have later : low - first = low - (first + 1) + 1 := by omega
      have same : max low (first + 1) = max low first := by omega
      rw [if_neg (by omega), later, List.drop_succ_cons, same]
    · have begun : low - first = 0 ∧ low - (first + 1) = 0 := by omega
      have here : max low first = first ∧ max low (first + 1) = first + 1 := by omega
      rw [begun.1, begun.2, here.1, here.2, List.drop_zero, List.drop_zero]
      rcases Nat.lt_or_ge first high with within | beyond
      · have one : high - first = high - (first + 1) + 1 := by omega
        rw [if_pos ⟨reached, within⟩, one, List.take_succ_cons]
      · have none : high - first = 0 ∧ high - (first + 1) = 0 := by omega
        rw [if_neg (by omega), none.1, none.2, List.take_zero, List.take_zero]

/-- A position leaves the same items before it as the place that it was made of. -/
theorem lt_position_iff {count place : Nat} (inside : place < count) (i : Int) :
    place < position count i ↔ place < placed count i := by
  unfold position placed
  rcases Int.lt_or_le i 0 with negative | proper
  · rw [if_pos negative, if_neg (by omega)]
    omega
  · rw [if_neg (by omega), if_pos proper]
    omega

/-- The place at which a slice stops is its length behind that of the start, unless it has none. -/
theorem placed_add {count : Nat} {start : Int} {n : Nat} (stops : ¬(start < 0 ∧ 0 ≤ start + n)) :
    placed count (start + n) = placed count start + n := by
  unfold placed
  rcases Int.lt_or_le start 0 with negative | proper
  · rw [if_neg (by omega), if_neg (by omega), Int.add_assoc]
  · rw [if_pos (by omega), if_pos proper]

/-- The places of a slice are those between the positions of its start and its stop. -/
theorem inSlice_iff {start : Int} {length : Option Nat} {count place : Nat}
    (inside : place < count) :
    inSlice start length count place = true ↔
      position count start ≤ place ∧
        place < (sliceStop start (length.map Int.ofNat)).elim count (position count) := by
  have low : placed count start ≤ place ↔ position count start ≤ place := by
    rw [← Int.not_lt, ← Nat.not_lt, lt_position_iff inside]
  rw [inSlice, Bool.and_eq_true, decide_eq_true_eq, low]
  refine and_congr_right fun _ => ?_
  cases length with
  | none => simpa [sliceStop] using inside
  | some n =>
    simp only [Option.all_some, decide_eq_true_eq, Option.map_some, sliceStop, Int.ofNat_eq_natCast]
    by_cases reaches : start < 0 ∧ 0 ≤ start + n
    · -- The slice starts before the end and reaches it.
      rw [if_pos reaches, Option.elim_none, placed, if_neg (by omega)]
      omega
    · rw [if_neg reaches, Option.elim_some, ← placed_add reaches, ← lt_position_iff inside]

theorem window_eq {α : Type} (items : List α) (start : Int) (stop : Option Int) :
    window items start stop =
      (items.drop (position items.length start)).take
        (stop.elim items.length (position items.length) - position items.length start) := by
  cases stop <;> rfl

/-- **The window between start and stop is the slice.** -/
theorem window_eq_sliced {α : Type} (start : Int) (length : Option Nat) (items : List α) :
    window items start (sliceStop start (length.map Int.ofNat)) = sliced start length items := by
  have places : ∀ p ∈ items.zipIdx, inSlice start length items.length p.2 =
      decide (position items.length start ≤ p.2 ∧ p.2 <
        (sliceStop start (length.map Int.ofNat)).elim items.length (position items.length)) := by
    intro p among
    have inside : p.2 < items.length := by
      have bound := List.snd_lt_of_mem_zipIdx among
      omega
    rw [Bool.eq_iff_iff, inSlice_iff inside, decide_eq_true_eq]
  rw [sliced, List.filter_congr places, filter_zipIdx, Nat.sub_zero, Nat.max_zero, window_eq]

/-- A slice takes places, whatever stands there. -/
theorem sliced_map {α β : Type} (f : α → β) (start : Int) (length : Option Nat) (items : List α) :
    sliced start length (items.map f) = (sliced start length items).map f := by
  simp only [sliced, List.zipIdx_map, List.length_map, List.filter_map, List.map_map]
  rfl

/-! ### The text -/

theorem comma_not_mem_ofNat (n : Nat) : ',' ∉ ofNat n := fun among =>
  absurd (isDigit_of_mem_ofNat among) (by decide)

theorem comma_not_mem_ofInt (n : Int) : ',' ∉ ofInt n := by
  unfold ofInt
  split
  · rw [List.mem_cons, not_or]
    exact ⟨by decide, comma_not_mem_ofNat _⟩
  · exact comma_not_mem_ofNat _

theorem ofInt_ne_nil (n : Int) : ofInt n ≠ [] := by
  unfold ofInt
  split
  · exact List.cons_ne_nil _ _
  · exact ofNat_ne_nil _

theorem sliceBounds?_plain (start : Int) :
    sliceBounds? (ofInt start) = if isLong start then none else some (start, none) := by
  have blank : (Text.trim []).isEmpty = true := rfl
  rw [sliceBounds?, Text.cut_plain (comma_not_mem_ofInt start)]
  simp only [Option.getD_none, parse?_ofInt, blank, if_true]
  cases isLong start <;> rfl

theorem sliceBounds?_comma (start : Int) (n : Nat) :
    sliceBounds? (ofInt start ++ ',' :: ofNat n) =
      if isLong start || isLong n then none else some (start, some (n : Int)) := by
  have proper : (ofNat n).isEmpty = false := List.isEmpty_eq_false_iff.mpr (ofNat_ne_nil n)
  have length := parse?_ofInt n
  rw [ofInt, if_neg (by omega), Int.natAbs_natCast] at length
  rw [sliceBounds?, Text.cut_append (comma_not_mem_ofInt start)]
  simp only [Option.getD_some, parse?_ofInt, trim_ofNat, proper, length, Bool.false_eq_true,
    if_false]
  cases isLong start <;> cases isLong n <;> rfl

/-- **The text of a slice asks for it, unless one of its integers is too long to be read.** -/
theorem sliceBounds?_sliceText (start : Int) (length : Option Nat) :
    (given (some (sliceText start length))).bind sliceBounds? =
      if hasLong start length then none else some (start, length.map Int.ofNat) := by
  have proper : (sliceText start length).isEmpty = false := by
    simp [sliceText, String.ofList_eq_empty_iff, ofInt_ne_nil]
  unfold given
  simp only [proper, Bool.false_eq_true, if_false, Option.bind_some]
  unfold sliceText
  rw [String.toList_ofList]
  cases length with
  | none =>
    rw [List.append_nil, sliceBounds?_plain, hasLong, Option.any_none, Bool.or_false]
    rfl
  | some n =>
    rw [sliceBounds?_comma, hasLong, Option.any_some]
    rfl

/-! ### The filter -/

variable {argument : Option String} {start : Int} {length : Option Nat}

theorem slice_of_asks (asks : Asks argument start length) (v : Value) :
    slice v argument = .ok (match v with
      | .str s => .str (String.ofList (sliced start length s.toList))
      | .points ps => .ofPoints (sliced start length ps)
      | .list items => .list (sliced start length items)
      | .tuple items => .list (sliced start length items)
      | v => v) := by
  unfold slice
  rw [asks]
  dsimp only
  cases v <;> simp only [window_eq_sliced]

/-- An argument that asks for no slice leaves every value as it is. -/
theorem slice_of_unread (unread : (given argument).bind sliceBounds? = none) (v : Value) :
    slice v argument = .ok v := by
  unfold slice
  rw [unread]

theorem apply_slice (world : Surroundings) (v : Value) :
    Filter.apply (builtins world) v ⟨"slice", argument⟩ = slice v argument :=
  rfl

/-- There is nothing behind the last item. -/
theorem sliced_beyond {α : Type} {items : List α} (beyond : items.length ≤ start) :
    sliced start length items = [] := by
  have outside : ∀ p ∈ items.zipIdx, ¬inSlice start length items.length p.2 = true := by
    intro p among taken
    have inside := List.snd_lt_of_mem_zipIdx among
    rw [inSlice, Bool.and_eq_true, decide_eq_true_eq, placed, if_pos (by omega)] at taken
    omega
  rw [sliced, List.filter_eq_nil_iff.mpr outside, List.map_nil]

/-- **A slice is the window that is asked for.** An argument that asks for a slice, be its text what
it may, gives the items at the places that the slice takes, in order: as a text of a text, which is
a row of code points, and as a list of a list or of a fixed sequence. Start and length in plain
decimal, with a comma between them, are an argument that asks for their slice, unless one of them is
too long to be read; then every value stays as it is. -/
theorem slice_is_window (world : Surroundings) (start : Int) (length : Option Nat) :
    (∀ argument, Asks argument start length →
      (∀ ps, Filter.apply (builtins world) (.ofPoints ps) ⟨"slice", argument⟩ =
        .ok (.ofPoints (sliced start length ps))) ∧
      (∀ items, Filter.apply (builtins world) (.list items) ⟨"slice", argument⟩ =
        .ok (.list (sliced start length items))) ∧
      ∀ items, Filter.apply (builtins world) (.tuple items) ⟨"slice", argument⟩ =
        .ok (.list (sliced start length items))) ∧
    (hasLong start length = false → Asks (some (sliceText start length)) start length) ∧
    (hasLong start length = true → ∀ v,
      Filter.apply (builtins world) v ⟨"slice", some (sliceText start length)⟩ = .ok v) := by
  refine ⟨fun argument asks => ⟨fun ps => ?_, fun items => ?_, fun items => ?_⟩, fun short => ?_,
    fun long v => ?_⟩
  · have filter := slice_of_asks asks (.ofPoints ps)
    rcases Value.ofPoints_cases ps with ⟨s, made, rfl⟩ | made
    · rw [made] at filter ⊢
      rw [sliced_map, Value.ofPoints_map_char]
      exact filter
    · rw [made] at filter ⊢
      exact filter
  · exact slice_of_asks asks (.list items)
  · exact slice_of_asks asks (.tuple items)
  · rw [Asks, sliceBounds?_sliceText, short]
    rfl
  · have unread := sliceBounds?_sliceText start length
    rw [if_pos long] at unread
    rw [apply_slice, slice_of_unread unread]

theorem slice_is_window_inside :
    Asks (some "-3,2") (-3) (some 2) ∧
      Filter.apply (builtins .still) (.str "a&b<c") ⟨"slice", some "-3,2"⟩ = .ok (.str "b<") ∧
      Filter.apply (builtins .still) (.tuple [.int 1, .int 2]) ⟨"slice", some "-3,2"⟩ =
        .ok (.list [.int 1]) := by
  have text : sliceText (-3) (some 2) = "-3,2" := rfl
  obtain ⟨read, written, -⟩ := slice_is_window .still (-3) (some 2)
  have asks : Asks (some "-3,2") (-3) (some 2) := text ▸ written (by decide)
  obtain ⟨texts, -, tuples⟩ := read _ asks
  exact ⟨asks, texts ("a&b<c".toList.map .char), tuples [.int 1, .int 2]⟩

/-- A start behind the only item, too long to be read: the slice is empty, but nothing is sliced. -/
theorem long_start_not_sliced :
    Filter.apply (builtins .still) (.list [.int 1]) ⟨"slice", some (sliceText (tenTo 4300) none)⟩ =
        .ok (.list [.int 1]) ∧
      sliced (tenTo 4300) none [Value.int 1] = [] := by
  have long : hasLong (tenTo 4300) none = true := by
    rw [hasLong, Option.any_none, Bool.or_false, isLong_iff, Int.natAbs_natCast]
    exact tenTo_le (by decide)
  have unread := sliceBounds?_sliceText (tenTo 4300) none
  rw [if_pos long] at unread
  rw [apply_slice, slice_of_unread unread]
  exact ⟨rfl, sliced_beyond (Int.ofNat_le.mpr (tenTo_pos 4300))⟩

end Stencil.Filter
