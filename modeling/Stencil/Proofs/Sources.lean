/-
# Sources in files

Directories have a source for a template only if it stands in one of the files of
the tree. So however many names there are, the templates that they lead to have no
more trees than there are files.

Key definitions: `Directories.trees`.
Key theorems: `Directories.exists_file_of_load`, `Directories.tree_mem_of_fetch`.
-/
import Stencil.Files.Directories
import Stencil.Proofs.Lookup

namespace Stencil

namespace FileTree

variable {t : FileTree} {bytes : ByteArray}

/-- What is found at the end of a walk is a file of the tree. -/
theorem mem_of_walk {parts : List String} {l : Location} (h : t.walk l parts = .file bytes) :
    ∃ f ∈ t.files, f.2 = bytes := by
  induction parts generalizing l with
  | nil =>
    unfold walk entry at h
    split at h
    · next found =>
      cases h
      obtain ⟨front, back, whole, -⟩ := List.lookup_eq_some_iff.mp found
      exact ⟨(l, bytes), whole ▸ List.mem_append_right _ List.mem_cons_self, rfl⟩
    · split at h <;> cases h
  | cons part parts ih =>
    unfold walk at h
    split at h
    · cases h
    · split at h
      · cases h
      · exact ih h

theorem mem_of_follow {p : Path} (h : t.follow p = .file bytes) : ∃ f ∈ t.files, f.2 = bytes := by
  unfold follow at h
  split at h
  · cases h
  · exact mem_of_walk h

end FileTree

namespace Directories

variable {t : FileTree} {d : Directories} {name : String} {l : Location} {bytes : ByteArray}

theorem mem_of_firstFile {ls : List Location} (h : firstFile t ls = .ok (some (l, bytes))) :
    ∃ f ∈ t.files, f.2 = bytes := by
  induction ls with
  | nil => cases h
  | cons l ls ih =>
    unfold firstFile at h
    split at h
    · next found =>
      cases h
      exact FileTree.mem_of_follow found
    · cases h
    · exact ih h

theorem mem_of_searchIn {extensions : List String} {base : Location}
    (h : searchIn t name extensions base = .ok (some (l, bytes))) : ∃ f ∈ t.files, f.2 = bytes := by
  unfold searchIn at h
  cases first : firstFile t (candidates base name (usable extensions)) with
  | error f =>
    simp only [first] at h
    cases h
  | ok found =>
    simp only [first] at h
    cases found with
    | some found =>
      cases h
      exact mem_of_firstFile first
    | none =>
      change (if _ then _ else _) = _ at h
      split at h <;> cases h

theorem mem_of_search {extensions paths : List String}
    (h : search t name extensions paths = .ok (some (l, bytes))) : ∃ f ∈ t.files, f.2 = bytes := by
  induction paths with
  | nil => cases h
  | cons path paths ih =>
    unfold search at h
    split at h
    · cases h
    · cases first : searchIn t name extensions ((Path.ofText path).locate t.home) with
      | error f =>
        simp only [first] at h
        cases h
      | ok found =>
        simp only [first] at h
        cases found with
        | some found =>
          cases h
          exact mem_of_searchIn first
        | none => exact ih h

/-- **A source comes from a file**, by the encoding of the directories. -/
theorem exists_file_of_load {source : String} (h : d.load t name = .ok source) :
    ∃ encoding, Encoding.ofName? d.encoding = some encoding ∧
      ∃ f ∈ t.files, readText? encoding f.2 = some source := by
  unfold load at h
  cases first : d.find t name with
  | error f =>
    simp only [first] at h
    cases h
  | ok found =>
    simp only [first] at h
    cases found with
    | none => cases h
    | some found =>
      obtain ⟨l, bytes⟩ := found
      have inside : ∃ f ∈ t.files, f.2 = bytes := by
        unfold find at first
        split at first
        · cases first
        · exact mem_of_search first
      obtain ⟨f, member, rfl⟩ := inside
      cases known : Encoding.ofName? d.encoding with
      | none =>
        simp only [known] at h
        cases h
      | some encoding =>
        refine ⟨encoding, rfl, f, member, ?_⟩
        cases text : readText? encoding f.2 with
        | none =>
          simp only [known, bind, Except.bind, text] at h
          cases h
        | some _ =>
          simp only [known, bind, Except.bind, text] at h
          exact congrArg some (Except.ok.inj h)

/-- What the sources in the files of a tree are read as. -/
def trees (d : Directories) (t : FileTree) : List (List Node) :=
  t.files.filterMap fun f =>
    (Encoding.ofName? d.encoding).bind fun encoding =>
      (readText? encoding f.2).bind fun source => (parseTemplate source).toOption

theorem length_trees_le (d : Directories) (t : FileTree) : (d.trees t).length ≤ t.files.length :=
  List.length_filterMap_le _ _

/-- A template has the tree of a source in a file. -/
theorem tree_mem_of_fetch {u : Template} (h : Session.fetch (d.load t) name = .ok u) :
    u.tree ∈ d.trees t := by
  unfold Session.fetch at h
  split at h
  · cases h
  · next source loaded =>
    obtain ⟨encoding, known, f, member, text⟩ := exists_file_of_load loaded
    unfold Template.compile at h
    split at h
    · next nodes parsed =>
      cases h
      refine List.mem_filterMap.mpr ⟨f, member, ?_⟩
      rw [known, Option.bind_some, text, Option.bind_some, parsed]
      rfl
    · cases h

end Directories
end Stencil
