/-
# Values survive JSON

JSON has no dates and no halves of characters, and where it is read back a number that
is no integer, a field named twice and an integer of many digits need not come out as
they were. A value without these is portable: written as JSON, on one line or on many,
it is read back as the same value, its fields in the same order (`Value.ofJson_json`).

The reader of a value does not see where the value ends before it has come to the end.
So what is proved of each value says that it is read with anything behind it that
could not belong to it (`Value.Legible`), and a value is legible if its parts are.

Key definitions: `Value.Legible`, `Value.Portable`.
Key theorems: `Value.Legible.list`, `Value.Legible.object`, `Value.ofJson_json`,
`Value.Portable.visible`.
-/
import Mathlib.Data.List.Nodup
import Stencil.Proofs.Literals

namespace Stencil

namespace Table

variable {α : Type}

/-- A new name comes last. -/
theorem put_of_not_mem {name : String} (a : α) {t : Table α} (new : name ∉ names t) :
    put name a t = t ++ [(name, a)] := by
  induction t with
  | nil => rfl
  | cons p t ih =>
    rw [names, List.map_cons, List.mem_cons, not_or] at new
    rw [put, if_neg (Ne.symm new.1), ih new.2]
    rfl

/-- Among distinct names each is new where it stands. -/
theorem put_of_nodup {name : String} {a : α} {t u : Table α}
    (distinct : (names (t ++ (name, a) :: u)).Nodup) : put name a t = t ++ [(name, a)] := by
  rw [names, List.map_append, List.map_cons, List.nodup_middle, List.nodup_cons] at distinct
  exact put_of_not_mem a fun member => distinct.1 (List.mem_append_left _ member)

end Table

namespace Json

/-! ### Between the parts of a value -/

theorem skipSpace_cons {c : Char} (proper : isSpace c = false) (cs : List Char) :
    skipSpace (c :: cs) = c :: cs := by
  rw [skipSpace, List.dropWhile_cons, proper]
  rfl

/-- The start of a new line is skipped. -/
theorem skipSpace_newline (layout : Layout) (level : Nat) (cs : List Char) :
    skipSpace (layout.newline level ++ cs) = skipSpace cs := by
  have spaces : ∀ c ∈ layout.newline level, isSpace c = true := by
    cases layout with
    | compact => exact fun c member => absurd member List.not_mem_nil
    | lines width =>
      intro c member
      rcases List.mem_cons.mp member with rfl | inside
      · rfl
      · rw [List.eq_of_mem_replicate inside]
        rfl
  exact List.dropWhile_append_of_pos spaces

theorem skipSpace_newline_cons (layout : Layout) (level : Nat) {c : Char}
    (proper : isSpace c = false) (cs : List Char) :
    skipSpace (layout.newline level ++ c :: cs) = c :: cs := by
  rw [skipSpace_newline, skipSpace_cons proper]

theorem ends_newline (layout : Layout) (level : Nat) {c : Char}
    (stop : c ∈ [',', ']', '\x7d', '\n']) (rest : List Char) :
    Ends (layout.newline level ++ c :: rest) := by
  cases layout with
  | compact => exact ends_cons stop rest
  | lines width => exact ends_cons (by decide) _

/-- What stands between a colon and a value is skipped. -/
theorem colon_eq (layout : Layout) :
    ∃ gap, layout.colon = ':' :: gap ∧ ∀ cs, skipSpace (gap ++ cs) = skipSpace cs := by
  cases layout with
  | compact => exact ⟨[], rfl, fun _ => rfl⟩
  | lines width => exact ⟨[' '], rfl, fun _ => rfl⟩

/-! ### One step of the reader -/

section

variable {fuel : Nat} {cs ds more rest : List Char} {c : Char} {v : Value}

theorem readValue_items {vs : List Value} (first : skipSpace cs = c :: ds) (proper : c ≠ ']')
    (read : readItems fuel (c :: ds) = .ok (vs, rest)) :
    readValue (fuel + 1) ('[' :: cs) = .ok (.list vs, rest) := by
  rw [readValue.eq_3, first]
  split
  · next same => exact absurd (List.cons.inj same).1 proper
  · rw [read]
    rfl

theorem readItems_last (read : readValue fuel cs = .ok (v, more))
    (close : skipSpace more = ']' :: rest) : readItems (fuel + 1) cs = .ok ([v], rest) := by
  simp only [readItems.eq_2, read, close, bind, Except.bind, pure, Except.pure]

theorem readItems_more {vs : List Value} (read : readValue fuel cs = .ok (v, more))
    (comma : skipSpace more = ',' :: ds) (others : readItems fuel (skipSpace ds) = .ok (vs, rest)) :
    readItems (fuel + 1) cs = .ok (v :: vs, rest) := by
  simp only [readItems.eq_2, read, comma, others, bind, Except.bind, pure, Except.pure]

theorem readValue_fields {fields : Table Value} (first : skipSpace cs = c :: ds)
    (proper : c ≠ '\x7d') (read : readFields fuel [] (c :: ds) = .ok (fields, rest)) :
    readValue (fuel + 1) ('\x7b' :: cs) = .ok (.object fields, rest) := by
  rw [readValue.eq_4, first]
  split
  · next same => exact absurd (List.cons.inj same).1 proper
  · rw [read]
    rfl

variable {before : Table Value} {name gap : List Char}

theorem map_shown_char (cs : List Char) : (cs.map CodePoint.char).map CodePoint.shown = cs := by
  rw [List.map_map]
  exact List.map_id cs

theorem readFields_last (string : readString? cs = some (name.map .char, ':' :: gap))
    (read : readValue fuel (skipSpace gap) = .ok (v, more))
    (close : skipSpace more = '\x7d' :: rest) :
    readFields (fuel + 1) before ('"' :: cs) =
      .ok (Table.put (String.ofList name) v before, rest) := by
  have colon : skipSpace (':' :: gap) = ':' :: gap := skipSpace_cons rfl gap
  simp only [readFields.eq_2, string, colon, read, close, map_shown_char, bind, Except.bind, pure,
    Except.pure]

theorem readFields_more (string : readString? cs = some (name.map .char, ':' :: gap))
    (read : readValue fuel (skipSpace gap) = .ok (v, more)) (comma : skipSpace more = ',' :: rest) :
    readFields (fuel + 1) before ('"' :: cs) =
      readFields fuel (Table.put (String.ofList name) v before) (skipSpace rest) := by
  have colon : skipSpace (':' :: gap) = ':' :: gap := skipSpace_cons rfl gap
  simp only [readFields.eq_2, string, colon, read, comma, map_shown_char, bind, Except.bind]

end

end Json

namespace Value

open Json

/-! ### Legible values -/

/-- A value that is read as it was written, with whatever may follow it. -/
structure Legible (v : Value) : Prop where
  begins : ∀ layout level, ∃ c cs, jsonAt layout level v = c :: cs ∧ isSpace c = false ∧ c ≠ ']'
  /-- As many steps as there are characters are enough. -/
  reads : ∀ layout level fuel rest, (jsonAt layout level v).length ≤ fuel → Ends rest →
    readValue fuel (jsonAt layout level v ++ rest) = .ok (v, rest)

namespace Legible

variable {v : Value}

theorem skipSpace_append (legible : Legible v) (layout : Layout) (level : Nat)
    (rest : List Char) :
    skipSpace (jsonAt layout level v ++ rest) = jsonAt layout level v ++ rest := by
  obtain ⟨c, cs, text, proper, -⟩ := legible.begins layout level
  rw [text, List.cons_append, skipSpace_cons proper]

/-- A value is legible if it is read by its first character, with a step for each other one. -/
theorem of_cons {c : Char} (body : Layout → Nat → List Char)
    (text : ∀ layout level, jsonAt layout level v = c :: body layout level)
    (proper : isSpace c = false) (inside : c ≠ ']')
    (read : ∀ layout level fuel rest, (body layout level).length ≤ fuel → Ends rest →
      readValue (fuel + 1) (c :: (body layout level ++ rest)) = .ok (v, rest)) : Legible v := by
  refine ⟨fun layout level => ⟨c, _, text layout level, proper, inside⟩, ?_⟩
  intro layout level fuel rest enough ends
  rw [text, List.length_cons] at enough
  obtain ⟨fuel, rfl⟩ := Nat.exists_eq_add_one.mpr (Nat.zero_lt_of_lt enough)
  rw [text]
  exact read layout level fuel rest (Nat.le_of_succ_le_succ enough) ends

/-- Words and numbers are legible if they are read before whatever may follow them. -/
theorem of_readAtom {c : Char} {cs : List Char}
    (text : ∀ layout level, jsonAt layout level v = c :: cs)
    (first : isSpace c = false ∧ c ≠ ']' ∧ c ≠ '"' ∧ c ≠ '[' ∧ c ≠ '\x7b')
    (read : ∀ rest, Ends rest → readAtom (c :: cs ++ rest) = .ok (v, rest)) : Legible v := by
  obtain ⟨proper, inside, quote, bracket, brace⟩ := first
  refine of_cons _ text proper inside fun layout level fuel rest _ ends => ?_
  rw [← read rest ends]
  exact readValue.eq_5 _ fuel (fun _ same => quote (List.cons.inj same).1)
    (fun _ same => bracket (List.cons.inj same).1) fun _ same => brace (List.cons.inj same).1

theorem null : Legible .null :=
  of_readAtom (fun _ _ => rfl) (by decide) fun _ _ => rfl

theorem bool (b : Bool) : Legible (.bool b) := by
  cases b with
  | false => exact of_readAtom (fun _ _ => rfl) (by decide) fun _ _ => rfl
  | true => exact of_readAtom (fun _ _ => rfl) (by decide) fun _ _ => rfl

theorem int {n : Int} (short : Number.isLong n = false) : Legible (.int n) := by
  have begins : ∃ c cs, Number.ofInt n = c :: cs ∧ (c.isDigit = true ∨ c = '-') := by
    obtain ⟨d, ds, written⟩ := List.exists_cons_of_ne_nil (Number.ofNat_ne_nil n.natAbs)
    have digit : d.isDigit = true :=
      Number.isDigit_of_mem_ofNat (n := n.natAbs) (written ▸ List.mem_cons_self)
    unfold Number.ofInt
    split
    · exact ⟨'-', _, rfl, .inr rfl⟩
    · exact ⟨d, ds, written, .inl digit⟩
  obtain ⟨c, cs, written, first⟩ := begins
  refine of_readAtom (fun _ _ => written) ?_ fun rest ends => ?_
  · rcases first with digit | rfl
    · have other (mark : Char) (plain : mark.isDigit = false) : c ≠ mark :=
        Text.ne_of_isDigit digit plain
      have proper : isSpace c = false := by
        simp [isSpace, other ' ' rfl, other '\t' rfl, other '\n' rfl, other '\r' rfl]
      exact ⟨proper, other ']' rfl, other '"' rfl, other '[' rfl, other '\x7b' rfl⟩
    · decide
  · rw [← written]
    exact readAtom_ofInt short ends

theorem str (s : String) : Legible (.str s) := by
  refine of_cons (fun _ _ => s.toList.flatMap escapeChar ++ ['"']) (fun _ _ => rfl) rfl
    (by decide) fun layout level fuel rest _ _ => ?_
  have read := readString?_string s.toList rest
  rw [readValue.eq_2, List.append_assoc, List.singleton_append, read]
  show Except.ok (ofPoints (s.toList.map .char), rest) = _
  rw [ofPoints_map_char, String.ofList_toList]

end Legible

/-! ### Sequences -/

/-- The items of a sequence up to its bracket. -/
theorem readItems_json (layout : Layout) (level outer : Nat) (rest : List Char) :
    ∀ (vs : List Value) (v : Value) (fuel : Nat), (∀ u ∈ v :: vs, Legible u) →
      (jsonAt layout level v ++ jsonRest layout level vs).length < fuel →
      readItems fuel (jsonAt layout level v ++ (jsonRest layout level vs ++
        (layout.newline outer ++ ']' :: rest))) = .ok (v :: vs, rest)
  | [], v, fuel + 1, legible, enough => by
    have first := legible v List.mem_cons_self
    have room : (jsonAt layout level v).length ≤ fuel := by
      rw [List.length_append] at enough
      omega
    have ends := ends_newline layout outer (c := ']') (by decide) rest
    exact readItems_last (first.reads layout level fuel _ room ends)
      (skipSpace_newline_cons layout outer rfl rest)
  | w :: vs, v, fuel + 1, legible, enough => by
    have first := legible v List.mem_cons_self
    have others : ∀ u ∈ w :: vs, Legible u := fun u member =>
      legible u (List.mem_cons_of_mem v member)
    rw [jsonRest] at enough ⊢
    simp only [List.length_append, List.length_cons] at enough
    have ih := readItems_json layout level outer rest vs w fuel others
      (by rw [List.length_append]; omega)
    simp only [List.cons_append, List.append_assoc]
    refine readItems_more (first.reads layout level fuel _ (by omega) (ends_cons (by decide) _))
      (skipSpace_cons rfl _) ?_
    rw [skipSpace_newline, (others w List.mem_cons_self).skipSpace_append]
    exact ih

theorem Legible.list {vs : List Value} (legible : ∀ v ∈ vs, Legible v) : Legible (.list vs) := by
  cases vs with
  | nil =>
    exact of_cons _ (fun _ _ => rfl) rfl (by decide) fun _ _ fuel _ _ _ => readValue.eq_3 fuel _
  | cons v vs =>
    have first := legible v List.mem_cons_self
    refine of_cons (c := '[')
      (fun layout level => layout.newline (level + 1) ++ (jsonAt layout (level + 1) v ++
        (jsonRest layout (level + 1) vs ++ (layout.newline level ++ [']']))))
      (fun layout level => by simp [jsonAt, jsonItems]) rfl (by decide) ?_
    intro layout level fuel rest enough _
    obtain ⟨c, cs, text, proper, inside⟩ := first.begins layout (level + 1)
    simp only [List.length_append, List.length_singleton] at enough
    have read := readItems_json layout (level + 1) level rest vs v fuel legible
      (by rw [List.length_append]; omega)
    simp only [List.append_assoc, List.singleton_append]
    rw [text, List.cons_append] at read ⊢
    exact readValue_items (by rw [skipSpace_newline, skipSpace_cons proper]) inside read

/-! ### Objects -/

/-- A field with what follows it. -/
theorem jsonField_append (layout : Layout) (level : Nat) (name : String) (v : Value) :
    ∃ gap, (∀ cs, skipSpace (gap ++ cs) = skipSpace cs) ∧ ∀ tail,
      jsonField layout level (name, v) ++ tail =
        '"' :: (name.toList.flatMap escapeChar ++ '"' :: ':' ::
          (gap ++ (jsonAt layout level v ++ tail))) := by
  obtain ⟨gap, colon, skipped⟩ := colon_eq layout
  refine ⟨gap, skipped, fun tail => ?_⟩
  simp [jsonField, Json.string, colon]

/-- The fields of an object up to its brace, after some others. -/
theorem readFields_json (layout : Layout) (level outer : Nat) (rest : List Char) :
    ∀ (fields : Table Value) (name : String) (v : Value) (before : Table Value) (fuel : Nat),
      (Table.names (before ++ (name, v) :: fields)).Nodup →
      (∀ f ∈ (name, v) :: fields, Legible f.2) →
      (jsonField layout level (name, v) ++ jsonFields layout level fields).length < fuel →
      readFields fuel before (jsonField layout level (name, v) ++
        (jsonFields layout level fields ++ (layout.newline outer ++ '\x7d' :: rest))) =
          .ok (before ++ (name, v) :: fields, rest)
  | fields, name, v, before, fuel + 1, distinct, legible, enough => by
    obtain ⟨gap, skipped, text⟩ := jsonField_append layout level name v
    have first : Legible v := legible (name, v) List.mem_cons_self
    have put : Table.put (String.ofList name.toList) v before = before ++ [(name, v)] := by
      rw [String.ofList_toList, Table.put_of_nodup distinct]
    rw [text] at enough ⊢
    simp only [List.length_cons, List.length_append] at enough
    have read (tail : List Char) (ends : Ends tail) :
        readValue fuel (skipSpace (gap ++ (jsonAt layout level v ++ tail))) = .ok (v, tail) := by
      rw [skipped, first.skipSpace_append]
      exact first.reads layout level fuel tail (by omega) ends
    match fields with
    | [] =>
      have ends := ends_newline layout outer (c := '\x7d') (by decide) rest
      rw [jsonFields, List.nil_append, readFields_last (readString?_string _ _) (read _ ends)
        (skipSpace_newline_cons layout outer rfl rest), put]
    | (next, w) :: fields =>
      simp only [jsonFields, List.cons_append, List.length_cons, List.length_append] at enough
      have ih := readFields_json layout level outer rest fields next w (before ++ [(name, v)]) fuel
        (by rwa [List.append_assoc]) (fun f member => legible f (List.mem_cons_of_mem _ member))
        (by rw [List.length_append]; omega)
      have start (tail : List Char) : skipSpace (jsonField layout level (next, w) ++ tail) =
          jsonField layout level (next, w) ++ tail := skipSpace_cons rfl _
      simp only [jsonFields, List.cons_append, List.append_assoc]
      rw [readFields_more (readString?_string _ _) (read _ (ends_cons (by decide) _))
        (skipSpace_cons rfl _), put, skipSpace_newline, start, ih, List.append_assoc]
      rfl

theorem Legible.object {fields : Table Value} (distinct : (Table.names fields).Nodup)
    (legible : ∀ f ∈ fields, Legible f.2) : Legible (.object fields) := by
  match fields with
  | [] =>
    exact of_cons _ (fun _ _ => rfl) rfl (by decide) fun _ _ fuel _ _ _ => readValue.eq_4 fuel _
  | (name, v) :: fields =>
    refine of_cons (c := '\x7b')
      (fun layout level => layout.newline (level + 1) ++
        (jsonField layout (level + 1) (name, v) ++ (jsonFields layout (level + 1) fields ++
          (layout.newline level ++ ['\x7d']))))
      (fun layout level => by simp [jsonAt]) rfl (by decide) ?_
    intro layout level fuel rest enough _
    simp only [List.length_append, List.length_singleton] at enough
    have read := readFields_json layout (level + 1) level rest fields name v [] fuel distinct
      legible (by rw [List.length_append]; omega)
    simp only [List.append_assoc, List.singleton_append]
    refine readValue_fields ?_ (by decide) read
    rw [skipSpace_newline]
    exact skipSpace_cons rfl _

/-! ### Portable values -/

/-- A value that JSON keeps: no date and no float, no half of a character, no name twice in an
object, and no integer that is too long to be read. -/
inductive Portable : Value → Prop
  | null : Portable null
  | bool (b : Bool) : Portable (bool b)
  | int {n : Int} (short : Number.isLong n = false) : Portable (int n)
  | str (s : String) : Portable (str s)
  | list {items : List Value} (each : ∀ v ∈ items, Portable v) : Portable (list items)
  | object {fields : Table Value} (distinct : (Table.names fields).Nodup)
      (each : ∀ f ∈ fields, Portable f.2) : Portable (object fields)

variable {v : Value}

theorem Portable.legible (portable : Portable v) : Legible v := by
  induction portable with
  | null => exact .null
  | bool b => exact .bool b
  | int short => exact .int short
  | str s => exact .str s
  | list _ ih => exact .list ih
  | object distinct _ ih => exact .object distinct ih

/-- **A portable value is read back from its JSON.** -/
theorem ofJson_json (portable : Portable v) (layout : Layout) : ofJson (v.json layout) = .ok v := by
  have legible := portable.legible
  have start := legible.skipSpace_append layout 0 []
  have read := legible.reads layout 0 (2 * (jsonAt layout 0 v).length + 2) [] (by omega) ends_nil
  rw [List.append_nil] at start read
  unfold ofJson json
  simp only [String.toList_ofList, start, read, bind, Except.bind]
  rfl

/-! ### The characters of a text in JSON -/

/-- Text without control characters but for those that end a line. -/
def Visible (cs : List Char) : Prop :=
  ∀ c ∈ cs, c = '\n' ∨ 0x20 ≤ c.toNat

instance (cs : List Char) : Decidable (Visible cs) :=
  List.decidableBAll (fun c => c = '\n' ∨ 0x20 ≤ c.toNat) cs

@[simp] theorem visible_nil : Visible [] :=
  fun _ member => absurd member List.not_mem_nil

@[simp] theorem visible_cons {c : Char} {cs : List Char} :
    Visible (c :: cs) ↔ (c = '\n' ∨ 0x20 ≤ c.toNat) ∧ Visible cs :=
  List.forall_mem_cons

@[simp] theorem visible_append {cs ds : List Char} :
    Visible (cs ++ ds) ↔ Visible cs ∧ Visible ds :=
  List.forall_mem_append

theorem visible_newline (layout : Layout) (level : Nat) : Visible (layout.newline level) := by
  cases layout with
  | compact => exact visible_nil
  | lines width =>
    refine visible_cons.mpr ⟨.inl rfl, fun c inside => .inr ?_⟩
    rw [List.eq_of_mem_replicate inside]
    decide

theorem visible_string (s : String) : Visible (Json.string s) := by
  have escaped (c : Char) : Visible (escapeChar c) := by
    rcases escapeChar_cases c with ⟨letter, made, -, visible, -⟩ | ⟨made, -⟩ | ⟨made, visible, -⟩
    · simp [made, visible]
    · have digits : Visible (Text.hexPadded 4 c.toNat) := fun d member => by
        have digit := List.all_eq_true.mp (Text.all_isHexDigit_hexPadded 4 c.toNat) d member
        exact .inr (Text.le_of_isHexDigit digit)
      simp [made, digits]
    · simp [made, visible]
  have inner : Visible (s.toList.flatMap escapeChar) := fun d member => by
    obtain ⟨c, -, inside⟩ := List.mem_flatMap.mp member
    exact escaped c d inside
  simp [Json.string, inner]

theorem visible_ofInt (n : Int) : Visible (Number.ofInt n) := by
  have digits : Visible (Number.ofNat n.natAbs) := fun c member => by
    have range := Lexer.range_of_isDigit (Number.isDigit_of_mem_ofNat member)
    exact .inr (by omega)
  unfold Number.ofInt
  split <;> simp [digits]

/-- **The only control characters of a text in JSON are ends of lines.** -/
theorem Portable.visible (portable : Portable v) (layout : Layout) :
    ∀ level, Visible (jsonAt layout level v) := by
  induction portable with
  | null => exact fun _ => (by decide : Visible "null".toList)
  | bool b =>
    cases b with
    | false => exact fun _ => (by decide : Visible "false".toList)
    | true => exact fun _ => (by decide : Visible "true".toList)
  | @int n _ => exact fun _ => visible_ofInt n
  | str s => exact fun _ => visible_string s
  | @list items _ ih =>
    have rest (vs : List Value) (level : Nat) (each : ∀ v ∈ vs, Visible (jsonAt layout level v)) :
        Visible (jsonRest layout level vs) := by
      induction vs with
      | nil => exact visible_nil
      | cons v vs ih =>
        rw [List.forall_mem_cons] at each
        simp [jsonRest, visible_newline, each.1, ih each.2]
    cases items with
    | nil => exact fun _ => (by decide : Visible "[]".toList)
    | cons v vs =>
      rw [List.forall_mem_cons] at ih
      intro level
      simp [jsonAt, jsonItems, visible_newline, ih.1, rest vs (level + 1) fun v m => ih.2 v m _]
  | @object fields _ _ ih =>
    have field (f : String × Value) (level : Nat) (inner : Visible (jsonAt layout level f.2)) :
        Visible (jsonField layout level f) := by
      obtain ⟨name, w⟩ := f
      have colon : Visible layout.colon := by
        cases layout <;> simp [Layout.colon]
      simp [jsonField, visible_string, colon, inner]
    have rest (fs : Table Value) (level : Nat)
        (each : ∀ f ∈ fs, Visible (jsonAt layout level f.2)) :
        Visible (jsonFields layout level fs) := by
      induction fs with
      | nil => exact visible_nil
      | cons f fs ih =>
        rw [List.forall_mem_cons] at each
        simp [jsonFields, visible_newline, field f level each.1, ih each.2]
    cases fields with
    | nil => exact fun _ => (by decide : Visible "\x7b\x7d".toList)
    | cons f fs =>
      rw [List.forall_mem_cons] at ih
      intro level
      simp [jsonAt, visible_newline, field f _ (ih.1 _), rest fs (level + 1) fun f m => ih.2 f m _]

end Value

end Stencil
