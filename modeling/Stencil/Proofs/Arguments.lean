/-
# Values on the command line

A binding on the command line is a name, a sign of equality and a text, and the first
sign separates them. The text is JSON if it can be read so; what was written as JSON
is therefore bound as the value that it was written from, though the text may hold
signs of equality of its own (`CommandLine.readBinding_json`). A context of fields is
read from a file or from standard input alike (`CommandLine.contextOf_json`).

Key theorems: `CommandLine.readBinding_json`, `CommandLine.contextOf_json`,
`CommandLine.json_read_back`.
-/
import Stencil.CommandLine.Outcome
import Stencil.Proofs.Interchange

namespace Stencil

/-- Text that was written to a file is read from it. -/
theorem readText?_toUTF8 {s : String} (plain : '\r' ∉ s.toList) :
    readText? .utf8 s.toUTF8 = some s := by
  have decoded : Encoding.decode? .utf8 s.toUTF8 = some s := dif_pos s.isValidUTF8
  rw [readText?, decoded, Option.map_some, unifyLines_of_not_mem plain, String.ofList_toList]

namespace CommandLine

variable (layout : Json.Layout)

/-- A binding to what was written as JSON. -/
theorem readBinding_json {v : Value} (portable : v.Portable) {key : String} (proper : key ≠ "")
    (plain : '=' ∉ key.toList)
    (first : ∀ c ∈ key.toList.head?, Text.isBlank c = false)
    (last : ∀ c ∈ key.toList.getLast?, Text.isBlank c = false) :
    readBinding (key ++ "=" ++ v.json layout) = .ok (key, v) := by
  have cut : Text.cut '=' (key ++ "=" ++ v.json layout).toList =
      (key.toList, some (v.json layout).toList) := by
    rw [String.toList_append, String.toList_append, List.append_assoc]
    exact Text.cut_append plain _
  have whole : Text.trim key.toList = key.toList := Text.trim_of_ends first last
  have named : key.toList.isEmpty = false := by simpa using proper
  simp only [readBinding, cut, whole, named, Bool.false_eq_true, if_false, String.ofList_toList,
    Value.ofJson_json portable layout]
  rfl

section

variable {fields : Table Value} (portable : (Value.object fields).Portable)
include portable

/-- The fields that were written are the context that is read. -/
theorem contextOf_json : contextOf ((Value.object fields).json layout) = .ok fields := by
  have text : ∃ cs, Value.jsonAt layout 0 (.object fields) = '\x7b' :: cs := by
    cases fields with
    | nil => exact ⟨_, rfl⟩
    | cons f fs => exact ⟨_, rfl⟩
  have shown : Text.allBlank ((Value.object fields).json layout).toList = false := by
    obtain ⟨cs, text⟩ := text
    rw [Value.json, String.toList_ofList, text]
    rfl
  rw [contextOf, shown, Value.ofJson_json portable layout]
  rfl

theorem readContext_file {t : FileTree} {file : String} (named : file ≠ "") (proper : file ≠ "-")
    (plain : '\x00' ∉ file.toList)
    (held : t.follow (Path.ofText file) = .file ((Value.object fields).json layout).toUTF8)
    (input : String) : readContext t input (some file) = .ok fields := by
  have visible := portable.visible layout 0
  have feeds : '\r' ∉ ((Value.object fields).json layout).toList := fun member => by
    rw [Value.json, String.toList_ofList] at member
    exact absurd (visible '\r' member) (by decide)
  have nul : file.contains '\x00' = false := by
    simpa using plain
  rw [readContext.eq_4 t input file named proper]
  simp only [nul, held, readText?_toUTF8 feeds, Bool.false_eq_true, if_false]
  exact contextOf_json layout portable

end

/-- **What was written as JSON is read from the command line.** For a portable value in any layout,
a binding of a name without a sign of equality, and without blanks around it, to its text is a
binding of the name to the value; and if the value has fields, they are the context that is read
from its text, be it in a file or on standard input. -/
theorem json_read_back {v : Value} (portable : v.Portable) (layout : Json.Layout) :
    (∀ key : String, key ≠ "" → '=' ∉ key.toList →
      (∀ c ∈ key.toList.head?, Text.isBlank c = false) →
      (∀ c ∈ key.toList.getLast?, Text.isBlank c = false) →
      readBindings [key ++ "=" ++ v.json layout] = .ok [(key, v)]) ∧
    (∀ fields, v = .object fields → ∀ (t : FileTree) (input file : String), file ≠ "" →
      file ≠ "-" → '\x00' ∉ file.toList →
      t.follow (Path.ofText file) = .file (v.json layout).toUTF8 →
      readContext t input (some file) = .ok fields) ∧
    (∀ fields, v = .object fields → ∀ t : FileTree,
      readContext t (v.json layout) (some "-") = .ok fields) := by
  refine ⟨fun key proper plain first last => ?_, ?_, ?_⟩
  · rw [readBindings, readBinding_json layout portable proper plain first last]
    rfl
  · rintro fields rfl t input file named proper plain held
    exact readContext_file layout portable named proper plain held input
  · rintro fields rfl t
    exact contextOf_json layout portable

/-- Fields with signs of equality, quotes and nested values in them. -/
def entry : Table Value :=
  [("a=b", .list [.int (-7), .bool true, .null, .str "\"=\\\n\x01\u00e9"]), ("next", .object [])]

/-- The same fields in a file. -/
def entryFiles : FileTree :=
  ⟨[], [(["entry.json"], ((Value.object entry).json (.lines 2)).toUTF8)], []⟩

theorem json_read_back_entry :
    (Value.object entry).Portable ∧
      (Value.object entry).json .compact =
        "\x7b\"a=b\":[-7,true,null,\"\\\"=\\\\\\n\\u0001\u00e9\"],\"next\":\x7b\x7d\x7d" ∧
      readBindings ["data=" ++ (Value.object entry).json .compact] =
        .ok [("data", .object entry)] ∧
      readContext entryFiles "" (some "entry.json") = .ok entry := by
  have list : (Value.list [.int (-7), .bool true, .null, .str "\"=\\\n\x01\u00e9"]).Portable := by
    refine .list ?_
    simp only [List.forall_mem_cons]
    exact ⟨.int (by decide), .bool true, .null, .str _, fun _ none => absurd none List.not_mem_nil⟩
  have portable : (Value.object entry).Portable := by
    refine .object (by decide) ?_
    simp only [entry, List.forall_mem_cons]
    exact ⟨list, .object .nil fun _ none => absurd none List.not_mem_nil,
      fun _ none => absurd none List.not_mem_nil⟩
  refine ⟨portable, rfl, ?_, ?_⟩
  · exact (json_read_back portable .compact).1 "data" (by decide) (by decide)
      (fun c first => Option.some.inj first ▸ rfl) fun c last => Option.some.inj last ▸ rfl
  · exact (json_read_back portable (.lines 2)).2.1 entry rfl entryFiles "" "entry.json" (by decide)
      (by decide) (by decide) rfl

end CommandLine

end Stencil
