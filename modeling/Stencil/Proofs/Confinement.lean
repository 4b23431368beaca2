/-
# The search for a template is confined

Whatever a name is made of, with double dots in it or a slash in front, a search
for it finds nothing but a file that lies in the directory at hand. A directory
is given up at the first extension that leads out of it. Of all the places that
are left, directory by directory and extension by extension, the first with a
file counts. A text with a NUL in it leads nowhere: a name of that kind has no
file, and a search that comes to a directory or an extension of that kind stops.

So what lies outside of all directories makes no difference: the result is the
same in all trees that agree inside of them.

Key definitions: `Location.Fits`, `FileTree.IsFile`, `Directories.Comes`,
`Directories.FirstIn`, `Directories.FruitlessIn`, `Directories.BarredIn`,
`Directories.First`, `Directories.Fruitless`, `Directories.Barred`,
`Directories.Ends`, `Directories.AgreeWithin`.
Key theorems: `Directories.searchIn_cons`, `Directories.exists_inside`,
`Directories.find_congr`, `Directories.search_confined`.
-/
import Stencil.Proofs.Sources

namespace Stencil

/-- A location is within the limits for names and paths. -/
structure Location.Fits (l : Location) : Prop where
  path : (Path.ofLocation l).text.utf8ByteSize ≤ FileTree.pathLimit
  names : ∀ part ∈ l, part.utf8ByteSize ≤ FileTree.nameLimit

instance (l : Location) : Decidable l.Fits :=
  decidable_of_iff ((Path.ofLocation l).text.utf8ByteSize ≤ FileTree.pathLimit ∧
      ∀ part ∈ l, part.utf8ByteSize ≤ FileTree.nameLimit)
    ⟨fun h => ⟨h.1, h.2⟩, fun h => ⟨h.path, h.names⟩⟩

/-- Steps lead back along the way to where they start, and from there on without any double dots. -/
theorem Path.foldl_step : ∀ (parts : List String) (l : Location),
    ∃ kept more, parts.foldl step l = kept ++ more ∧ kept <+: l ∧ ".." ∉ more
  | [], l => ⟨l, [], by simp, List.prefix_rfl, List.not_mem_nil⟩
  | part :: parts, l => by
    obtain ⟨kept, more, whole, back, straight⟩ := foldl_step parts (step l part)
    rw [List.foldl_cons, whole]
    unfold step at back
    by_cases dots : part = ".."
    · rw [if_pos dots] at back
      exact ⟨kept, more, rfl, back.trans (List.dropLast_prefix l), straight⟩
    · rw [if_neg dots] at back
      rcases List.prefix_concat_iff.mp back with rfl | back
      · refine ⟨l, part :: more, by simp, List.prefix_rfl, fun member => ?_⟩
        rcases List.mem_cons.mp member with here | later
        · exact dots here.symm
        · exact straight later
      · exact ⟨kept, more, rfl, back, straight⟩

/-- A path leads to no place with double dots from one without them. -/
theorem Path.locate_straight {home : Location} (straight : ".." ∉ home) (p : Path) :
    ".." ∉ p.locate home := by
  obtain ⟨kept, more, whole, back, further⟩ :=
    foldl_step p.parts (if p.isAbsolute then [] else home)
  rw [locate, whole]
  intro member
  rcases List.mem_append.mp member with there | there
  · have started := back.subset there
    split at started
    · exact List.not_mem_nil started
    · exact straight started
  · exact further there

namespace FileTree

variable {t t' : FileTree}

/-- There is a regular file at a location. -/
def IsFile (t : FileTree) (l : Location) : Prop :=
  ∃ bytes, t.follow (.ofLocation l) = .file bytes

theorem entry_ne_tooLong (l : Location) : t.entry l ≠ .tooLong := by
  intro h
  unfold entry at h
  split at h
  · cases h
  · split at h <;> cases h

theorem walk_ne_tooLong {parts : List String}
    (short : ∀ part ∈ parts, part.utf8ByteSize ≤ nameLimit) :
    ∀ l : Location, t.walk l parts ≠ .tooLong := by
  induction parts with
  | nil => exact entry_ne_tooLong
  | cons part parts ih =>
    intro l
    obtain ⟨here, further⟩ := List.forall_mem_cons.mp short
    have fits : ¬ nameLimit < part.utf8ByteSize := by omega
    rw [walk, if_neg fits]
    by_cases outside : (!t.isDirectory l) = true
    · rw [if_pos outside]
      intro h
      cases h
    · rw [if_neg outside]
      exact ih further _

theorem follow_ne_tooLong {l : Location} (fits : l.Fits) : t.follow (.ofLocation l) ≠ .tooLong := by
  have short : ¬ pathLimit < (Path.ofLocation l).text.utf8ByteSize := by
    have := fits.path
    omega
  unfold follow
  rw [if_neg short]
  exact walk_ne_tooLong fits.names _

/-- A walk without double dots asks for directories and for the file at its end. -/
theorem walk_congr (directories : ∀ l, t'.isDirectory l = t.isDirectory l) {parts : List String} :
    ".." ∉ parts → ∀ l : Location, t'.files.lookup (l ++ parts) = t.files.lookup (l ++ parts) →
      t'.walk l parts = t.walk l parts := by
  induction parts with
  | nil =>
    intro _ l files
    rw [List.append_nil] at files
    unfold walk entry
    rw [files, directories]
  | cons part parts ih =>
    intro straight l files
    obtain ⟨first, others⟩ := not_or.mp (straight ∘ List.mem_cons.mpr)
    have on : Path.step l part = l ++ [part] := if_neg fun dots => first dots.symm
    rw [walk, walk, directories, on, ih others]
    rw [List.append_assoc]
    exact files

end FileTree

namespace Directories

/-- Where a search path leads. -/
def base (t : FileTree) (path : String) : Location :=
  (Path.ofText path).locate t.home

/-- Where a name with an extension leads in a directory. -/
def place (base : Location) (name extension : String) : Location :=
  (Path.ofText (name ++ extension)).locate base

/-- A place in a directory is reached from it without any double dots. -/
theorem exists_inside {base : Location} {name extension : String}
    (inside : (place base name extension).isWithin base = true) :
    ∃ more, place base name extension = base ++ more ∧ ".." ∉ more := by
  unfold place Path.locate at inside ⊢
  obtain ⟨kept, more, whole, back, straight⟩ := Path.foldl_step
    (Path.ofText (name ++ extension)).parts
    (if (Path.ofText (name ++ extension)).isAbsolute then [] else base)
  have start : kept <+: base := by
    split at back
    · rw [List.prefix_nil.mp back]
      exact List.nil_prefix
    · exact back
  obtain ⟨rest, rfl⟩ := start
  rw [whole, Location.isWithin, List.isPrefixOf_iff_prefix, List.prefix_append_right_inj] at inside
  obtain ⟨further, rfl⟩ := inside
  refine ⟨further, ?_, fun member => straight (List.mem_append_right _ member)⟩
  rw [whole, List.append_assoc]

/-- A text with a NUL in it leads nowhere. -/
def HasNul (s : String) : Prop :=
  '\x00' ∈ s.toList

theorem contains_iff {s : String} : s.contains '\x00' = true ↔ HasNul s := by
  simp [HasNul]

/-! ### One directory -/

/-- The search comes to an extension after some others: all of these lead into the directory. -/
structure Comes (base : Location) (name : String) (extensions front : List String)
    (extension : String) : Prop where
  listed : front ++ [extension] <+: extensions
  inside : ∀ x ∈ front, (place base name x).isWithin base = true

/-- The first file of a directory is at a location: an extension that the search comes to leads
there, the location is in the directory, and no extension before it leads to a file. -/
def FirstIn (t : FileTree) (base : Location) (name : String) (extensions : List String)
    (l : Location) (bytes : ByteArray) : Prop :=
  ∃ front extension, Comes base name extensions front extension ∧
    (∀ x ∈ front ++ [extension], ¬ HasNul x) ∧
    place base name extension = l ∧ l.isWithin base = true ∧
    t.follow (.ofLocation l) = .file bytes ∧
    ∀ x ∈ front, ¬ t.IsFile (place base name x)

/-- The search comes to no extension that leads to a file in the directory, and to none with a
NUL. -/
def FruitlessIn (t : FileTree) (base : Location) (name : String) (extensions : List String) :
    Prop :=
  ∀ front extension, Comes base name extensions front extension →
    ¬ HasNul extension ∧
      ((place base name extension).isWithin base = true → ¬ t.IsFile (place base name extension))

/-- The search comes to an extension with a NUL and to no file before it. -/
def BarredIn (t : FileTree) (base : Location) (name : String) (extensions : List String) : Prop :=
  ∃ front extension, Comes base name extensions front extension ∧
    HasNul extension ∧
    ∀ x ∈ front, ¬ HasNul x ∧ ¬ t.IsFile (place base name x)

section

variable {t : FileTree} {base : Location} {name : String}

theorem searchIn_eq (extensions : List String) :
    searchIn t name extensions base =
      match firstFile t (candidates base name (usable extensions)) with
      | .error f => .error f
      | .ok (some found) => .ok (some found)
      | .ok none =>
        if (candidates base name (usable extensions)).length = (usable extensions).length ∧
            (usable extensions).length < extensions.length then .error (.fault .embeddedNul)
        else .ok none := by
  unfold searchIn
  dsimp only
  rcases firstFile t (candidates base name (usable extensions)) with f | _ | found <;> rfl

/-- **The search in a directory goes by one extension after the other.** -/
theorem searchIn_cons (extension : String) (extensions : List String) :
    searchIn t name (extension :: extensions) base =
      if extension.contains '\x00' then .error (.fault .embeddedNul)
      else if (place base name extension).isWithin base then
        match t.follow (.ofLocation (place base name extension)) with
        | .file bytes => .ok (some (place base name extension, bytes))
        | .tooLong => .error (.fault .nameTooLong)
        | _ => searchIn t name extensions base
      else .ok none := by
  by_cases nul : extension.contains '\x00' = true
  · have none_usable : usable (extension :: extensions) = [] := by
      rw [usable, List.takeWhile_cons, nul]
      rfl
    rw [if_pos nul, searchIn_eq, none_usable]
    simp [candidates, firstFile]
  have more : usable (extension :: extensions) = extension :: usable extensions := by
    rw [usable, List.takeWhile_cons, if_pos (by rw [Bool.eq_false_iff.mpr nul]; rfl)]
    rfl
  rw [if_neg nul, searchIn_eq, more]
  by_cases inside : (place base name extension).isWithin base = true
  · have further : candidates base name (extension :: usable extensions) =
        place base name extension :: candidates base name (usable extensions) := by
      show (place base name extension :: _).takeWhile _ = _
      rw [List.takeWhile_cons, if_pos inside]
      rfl
    rw [if_pos inside, further, firstFile, searchIn_eq]
    cases t.follow (.ofLocation (place base name extension)) <;>
      simp only [List.length_cons, Nat.add_right_cancel_iff, Nat.add_lt_add_iff_right]
  · have none_left : candidates base name (extension :: usable extensions) = [] := by
      show (place base name extension :: _).takeWhile _ = _
      rw [List.takeWhile_cons, if_neg inside]
    rw [if_neg inside, none_left]
    simp [firstFile]

theorem comes_cons {first : String} {extensions front : List String} {extension : String} :
    Comes base name (first :: extensions) front extension ↔
      front = [] ∧ extension = first ∨
        ∃ rest, front = first :: rest ∧ (place base name first).isWithin base = true ∧
          Comes base name extensions rest extension := by
  constructor
  · rintro ⟨listed, inside⟩
    rcases front with _ | ⟨x, rest⟩
    · obtain ⟨rfl, -⟩ := List.cons_prefix_cons.mp listed
      exact .inl ⟨rfl, rfl⟩
    · obtain ⟨rfl, later⟩ := List.cons_prefix_cons.mp listed
      obtain ⟨here, further⟩ := List.forall_mem_cons.mp inside
      exact .inr ⟨rest, rfl, here, later, further⟩
  · rintro (⟨rfl, rfl⟩ | ⟨rest, rfl, here, listed, further⟩)
    · exact ⟨⟨extensions, rfl⟩, nofun⟩
    · exact ⟨List.cons_prefix_cons.mpr ⟨rfl, listed⟩, List.forall_mem_cons.mpr ⟨here, further⟩⟩

theorem firstIn_cons {first : String} {extensions : List String} {l : Location}
    {bytes : ByteArray} :
    FirstIn t base name (first :: extensions) l bytes ↔
      ¬ HasNul first ∧ (place base name first).isWithin base = true ∧
        (place base name first = l ∧ t.follow (.ofLocation l) = .file bytes ∨
          ¬ t.IsFile (place base name first) ∧ FirstIn t base name extensions l bytes) := by
  constructor
  · rintro ⟨front, extension, comes, whole, here, inside, found, others⟩
    rcases comes_cons.mp comes with ⟨rfl, rfl⟩ | ⟨rest, rfl, before, comes⟩
    · exact ⟨whole _ List.mem_cons_self, here ▸ inside, .inl ⟨here, found⟩⟩
    · obtain ⟨whole, wholes⟩ := List.forall_mem_cons.mp whole
      obtain ⟨other, others⟩ := List.forall_mem_cons.mp others
      exact ⟨whole, before,
        .inr ⟨other, rest, extension, comes, wholes, here, inside, found, others⟩⟩
  · rintro ⟨whole, inside, ⟨here, found⟩ | ⟨other, rest, extension, comes, wholes, here, within,
      found, others⟩⟩
    · exact ⟨[], first, comes_cons.mpr (.inl ⟨rfl, rfl⟩), List.forall_mem_cons.mpr ⟨whole, nofun⟩,
        here, here ▸ inside, found, nofun⟩
    · exact ⟨first :: rest, extension, comes_cons.mpr (.inr ⟨rest, rfl, inside, comes⟩),
        List.forall_mem_cons.mpr ⟨whole, wholes⟩, here, within, found,
        List.forall_mem_cons.mpr ⟨other, others⟩⟩

theorem fruitlessIn_cons {first : String} {extensions : List String} :
    FruitlessIn t base name (first :: extensions) ↔
      ¬ HasNul first ∧ ((place base name first).isWithin base = true →
        ¬ t.IsFile (place base name first) ∧ FruitlessIn t base name extensions) := by
  constructor
  · intro none
    obtain ⟨whole, other⟩ := none [] first (comes_cons.mpr (.inl ⟨rfl, rfl⟩))
    refine ⟨whole, fun inside => ⟨other inside, fun front extension comes => ?_⟩⟩
    exact none (first :: front) extension (comes_cons.mpr (.inr ⟨front, rfl, inside, comes⟩))
  · rintro ⟨whole, further⟩ front extension comes
    rcases comes_cons.mp comes with ⟨rfl, rfl⟩ | ⟨rest, rfl, inside, comes⟩
    · exact ⟨whole, fun inside => (further inside).1⟩
    · exact (further inside).2 rest extension comes

theorem barredIn_cons {first : String} {extensions : List String} :
    BarredIn t base name (first :: extensions) ↔
      HasNul first ∨ ¬ HasNul first ∧ (place base name first).isWithin base = true ∧
        ¬ t.IsFile (place base name first) ∧ BarredIn t base name extensions := by
  constructor
  · rintro ⟨front, extension, comes, nul, others⟩
    rcases comes_cons.mp comes with ⟨rfl, rfl⟩ | ⟨rest, rfl, inside, comes⟩
    · exact .inl nul
    · obtain ⟨⟨whole, other⟩, others⟩ := List.forall_mem_cons.mp others
      exact .inr ⟨whole, inside, other, rest, extension, comes, nul, others⟩
  · rintro (nul | ⟨whole, inside, other, rest, extension, comes, nul, others⟩)
    · exact ⟨[], first, comes_cons.mpr (.inl ⟨rfl, rfl⟩), nul, nofun⟩
    · exact ⟨first :: rest, extension, comes_cons.mpr (.inr ⟨rest, rfl, inside, comes⟩), nul,
        List.forall_mem_cons.mpr ⟨⟨whole, other⟩, others⟩⟩

end

/-! ### What a search comes to

There are three ways for a search to end, in one directory and in all of them. -/

/-- One search after another one that comes to nothing. -/
def orNext (r r' : Except Failure (Option (Location × ByteArray))) :
    Except Failure (Option (Location × ByteArray)) :=
  match r with
  | .error f => .error f
  | .ok (some found) => .ok (some found)
  | .ok none => r'

/-- A search ends with the first file, with nothing or at a NUL. -/
structure Ends (result : Except Failure (Option (Location × ByteArray)))
    (first : Location → ByteArray → Prop) (fruitless barred : Prop) : Prop where
  found : ∀ l bytes, result = .ok (some (l, bytes)) ↔ first l bytes
  nothing : result = .ok none ↔ fruitless
  stopped : ∀ f, result = .error f ↔ f = .fault .embeddedNul ∧ barred

namespace Ends

variable {r r' : Except Failure (Option (Location × ByteArray))}
  {first first' : Location → ByteArray → Prop} {fruitless fruitless' barred barred' : Prop}

theorem of_found {l : Location} {bytes : ByteArray} (here : first l bytes)
    (unique : ∀ l' bytes', first l' bytes' → l = l' ∧ bytes = bytes') (fruitful : ¬ fruitless)
    (open_ : ¬ barred) : Ends (.ok (some (l, bytes))) first fruitless barred where
  found l' bytes' := by
    constructor
    · rintro ⟨⟩
      exact here
    · intro other
      obtain ⟨rfl, rfl⟩ := unique l' bytes' other
      rfl
  nothing := ⟨nofun, fun none => absurd none fruitful⟩
  stopped _ := ⟨nofun, fun stop => absurd stop.2 open_⟩

theorem of_nothing (none : fruitless) (no_first : ∀ l bytes, ¬ first l bytes) (open_ : ¬ barred) :
    Ends (.ok .none) first fruitless barred where
  found l bytes := ⟨nofun, fun here => absurd here (no_first l bytes)⟩
  nothing := ⟨fun _ => none, fun _ => rfl⟩
  stopped _ := ⟨nofun, fun stop => absurd stop.2 open_⟩

theorem of_stopped (stop : barred) (no_first : ∀ l bytes, ¬ first l bytes)
    (fruitful : ¬ fruitless) : Ends (.error (.fault .embeddedNul)) first fruitless barred where
  found l bytes := ⟨nofun, fun here => absurd here (no_first l bytes)⟩
  nothing := ⟨nofun, fun none => absurd none fruitful⟩
  stopped f := by
    constructor
    · rintro ⟨⟩
      exact ⟨rfl, stop⟩
    · rintro ⟨rfl, -⟩
      rfl

theorem congr (h : Ends r first fruitless barred)
    (same_first : ∀ l bytes, first' l bytes ↔ first l bytes)
    (same_nothing : fruitless' ↔ fruitless) (same_stop : barred' ↔ barred) :
    Ends r first' fruitless' barred' where
  found l bytes := (h.found l bytes).trans (same_first l bytes).symm
  nothing := h.nothing.trans same_nothing.symm
  stopped f := by rw [h.stopped, same_stop]

/-- A search that goes on with another one after it came to nothing. -/
theorem andThen (h : Ends r first fruitless barred) (h' : Ends r' first' fruitless' barred') :
    Ends (orNext r r') (fun l bytes => first l bytes ∨ fruitless ∧ first' l bytes)
      (fruitless ∧ fruitless') (barred ∨ fruitless ∧ barred') := by
  rcases r with f | _ | ⟨l, bytes⟩
  · obtain ⟨rfl, stop⟩ := (h.stopped f).mp rfl
    have fruitful : ¬ fruitless := fun none => by cases h.nothing.mpr none
    have no_first (l : Location) (bytes : ByteArray) : ¬ first l bytes := fun here => by
      cases (h.found l bytes).mpr here
    apply of_stopped (.inl stop)
    · rintro l bytes (here | ⟨none, -⟩)
      · exact no_first l bytes here
      · exact fruitful none
    · exact fun none => fruitful none.1
  · have none : fruitless := h.nothing.mp rfl
    have open_ : ¬ barred := fun stop => by cases (h.stopped _).mpr ⟨rfl, stop⟩
    have no_first (l : Location) (bytes : ByteArray) : ¬ first l bytes := fun here => by
      cases (h.found l bytes).mpr here
    apply h'.congr
    · intro l bytes
      simp [none, no_first]
    · simp [none]
    · simp [none, open_]
  · have here : first l bytes := (h.found l bytes).mp rfl
    have fruitful : ¬ fruitless := fun none => by cases h.nothing.mpr none
    have open_ : ¬ barred := fun stop => by cases (h.stopped _).mpr ⟨rfl, stop⟩
    apply of_found (.inl here)
    · rintro l' bytes' (other | ⟨none, -⟩)
      · cases (h.found l' bytes').mpr other
        exact ⟨rfl, rfl⟩
      · exact absurd none fruitful
    · exact fun none => fruitful none.1
    · rintro (stop | ⟨none, -⟩)
      · exact open_ stop
      · exact fruitful none

end Ends

section

variable {t : FileTree} {base : Location} {name : String}

theorem ends_searchIn : ∀ {extensions : List String},
    (∀ x ∈ extensions, (place base name x).Fits) →
    Ends (searchIn t name extensions base) (FirstIn t base name extensions)
      (FruitlessIn t base name extensions) (BarredIn t base name extensions)
  | [], _ => by
    have no_more {front : List String} {extension : String} :
        ¬ Comes base name [] front extension := fun h => by simpa using h.listed
    show Ends (.ok none) _ _ _
    apply Ends.of_nothing
    · exact fun _ _ comes => absurd comes no_more
    · rintro l bytes ⟨front, extension, comes, -⟩
      exact no_more comes
    · rintro ⟨front, extension, comes, -⟩
      exact no_more comes
  | first :: extensions, fits => by
    obtain ⟨short, further⟩ := List.forall_mem_cons.mp fits
    rw [searchIn_cons]
    by_cases nul : HasNul first
    · rw [if_pos (contains_iff.mpr nul)]
      apply Ends.of_stopped (barredIn_cons.mpr (.inl nul))
      · exact fun l bytes here => (firstIn_cons.mp here).1 nul
      · exact fun none => (fruitlessIn_cons.mp none).1 nul
    rw [if_neg fun h => nul (contains_iff.mp h)]
    by_cases inside : (place base name first).isWithin base = true
    · rw [if_pos inside]
      cases there : t.follow (.ofLocation (place base name first)) with
      | file bytes =>
        have file : t.IsFile (place base name first) := ⟨bytes, there⟩
        apply Ends.of_found (firstIn_cons.mpr ⟨nul, inside, .inl ⟨rfl, there⟩⟩)
        · intro l' bytes' here
          rcases firstIn_cons.mp here with ⟨-, -, ⟨rfl, found⟩ | ⟨other, -⟩⟩
          · cases there.symm.trans found
            exact ⟨rfl, rfl⟩
          · exact absurd file other
        · exact fun none => ((fruitlessIn_cons.mp none).2 inside).1 file
        · simp [barredIn_cons, nul, file]
      | tooLong => exact absurd there (FileTree.follow_ne_tooLong short)
      | _ =>
        have other : ¬ t.IsFile (place base name first) := by
          rintro ⟨bytes, found⟩
          cases there.symm.trans found
        apply (ends_searchIn further).congr
        · intro l bytes
          have elsewhere :
              ¬ (place base name first = l ∧ t.follow (.ofLocation l) = .file bytes) := by
            rintro ⟨rfl, found⟩
            exact other ⟨bytes, found⟩
          simp [firstIn_cons, nul, inside, other, elsewhere]
        · simp [fruitlessIn_cons, nul, inside, other]
        · simp [barredIn_cons, nul, inside, other]
    · rw [if_neg inside]
      apply Ends.of_nothing
      · exact fruitlessIn_cons.mpr ⟨nul, fun h => absurd h inside⟩
      · exact fun l bytes here => inside (firstIn_cons.mp here).2.1
      · simp [barredIn_cons, nul, inside]

end

/-! ### All directories -/

/-- The first file of all directories is at a location: it is the first one of a directory, and
there is nothing in any directory before it. -/
def First (t : FileTree) (name : String) (extensions paths : List String) (l : Location)
    (bytes : ByteArray) : Prop :=
  ∃ before path, before ++ [path] <+: paths ∧
    (∀ other ∈ before, ¬ HasNul other ∧ FruitlessIn t (base t other) name extensions) ∧
    ¬ HasNul path ∧ FirstIn t (base t path) name extensions l bytes

/-- There is nothing in any directory. -/
def Fruitless (t : FileTree) (name : String) (extensions paths : List String) : Prop :=
  ∀ path ∈ paths, ¬ HasNul path ∧ FruitlessIn t (base t path) name extensions

/-- The search comes to a NUL in a search path or in an extension, and to no file before it. -/
def Barred (t : FileTree) (name : String) (extensions paths : List String) : Prop :=
  ∃ before path, before ++ [path] <+: paths ∧
    (∀ other ∈ before, ¬ HasNul other ∧ FruitlessIn t (base t other) name extensions) ∧
    (HasNul path ∨ BarredIn t (base t path) name extensions)

section

variable {t : FileTree} {name : String} {extensions : List String}

/-- Some list that begins another one is empty but for its last, or begins as the other does. -/
theorem snoc_prefix_cons {before : List String} {path first : String} {paths : List String} :
    before ++ [path] <+: first :: paths ↔
      before = [] ∧ path = first ∨ ∃ rest, before = first :: rest ∧ rest ++ [path] <+: paths := by
  cases before with
  | nil => simp [List.cons_prefix_cons]
  | cons x rest => simp [List.cons_prefix_cons, and_assoc]

theorem first_cons {first : String} {paths : List String} {l : Location} {bytes : ByteArray} :
    First t name extensions (first :: paths) l bytes ↔
      ¬ HasNul first ∧ (FirstIn t (base t first) name extensions l bytes ∨
        FruitlessIn t (base t first) name extensions ∧ First t name extensions paths l bytes) := by
  constructor
  · rintro ⟨before, path, listed, others, whole, found⟩
    rcases snoc_prefix_cons.mp listed with ⟨rfl, rfl⟩ | ⟨rest, rfl, later⟩
    · exact ⟨whole, .inl found⟩
    · obtain ⟨⟨whole', none⟩, others⟩ := List.forall_mem_cons.mp others
      exact ⟨whole', .inr ⟨none, rest, path, later, others, whole, found⟩⟩
  · rintro ⟨whole, found | ⟨none, rest, path, later, others, whole', found⟩⟩
    · exact ⟨[], first, snoc_prefix_cons.mpr (.inl ⟨rfl, rfl⟩), nofun, whole, found⟩
    · exact ⟨first :: rest, path, snoc_prefix_cons.mpr (.inr ⟨rest, rfl, later⟩),
        List.forall_mem_cons.mpr ⟨⟨whole, none⟩, others⟩, whole', found⟩

theorem barred_cons {first : String} {paths : List String} :
    Barred t name extensions (first :: paths) ↔
      HasNul first ∨ ¬ HasNul first ∧ (BarredIn t (base t first) name extensions ∨
        FruitlessIn t (base t first) name extensions ∧ Barred t name extensions paths) := by
  constructor
  · rintro ⟨before, path, listed, others, stop⟩
    rcases snoc_prefix_cons.mp listed with ⟨rfl, rfl⟩ | ⟨rest, rfl, later⟩
    · by_cases nul : HasNul path
      · exact .inl nul
      · exact .inr ⟨nul, .inl (stop.resolve_left nul)⟩
    · obtain ⟨⟨whole, none⟩, others⟩ := List.forall_mem_cons.mp others
      exact .inr ⟨whole, .inr ⟨none, rest, path, later, others, stop⟩⟩
  · rintro (nul | ⟨whole, stop | ⟨none, rest, path, later, others, stop⟩⟩)
    · exact ⟨[], first, snoc_prefix_cons.mpr (.inl ⟨rfl, rfl⟩), nofun, .inl nul⟩
    · exact ⟨[], first, snoc_prefix_cons.mpr (.inl ⟨rfl, rfl⟩), nofun, .inr stop⟩
    · exact ⟨first :: rest, path, snoc_prefix_cons.mpr (.inr ⟨rest, rfl, later⟩),
        List.forall_mem_cons.mpr ⟨⟨whole, none⟩, others⟩, stop⟩

theorem search_cons (path : String) (paths : List String) :
    search t name extensions (path :: paths) =
      if path.contains '\x00' then .error (.fault .embeddedNul)
      else orNext (searchIn t name extensions (base t path)) (search t name extensions paths) := by
  by_cases nul : path.contains '\x00' = true
  · rw [search, if_pos nul, if_pos nul]
  · rw [search, if_neg nul, if_neg nul]
    unfold base orNext
    rcases searchIn t name extensions ((Path.ofText path).locate t.home) with f | _ | found <;> rfl

theorem ends_search : ∀ {paths : List String},
    (∀ path ∈ paths, ∀ x ∈ extensions, (place (base t path) name x).Fits) →
    Ends (search t name extensions paths) (First t name extensions paths)
      (Fruitless t name extensions paths) (Barred t name extensions paths)
  | [], _ => by
    show Ends (.ok none) _ _ _
    apply Ends.of_nothing
    · exact fun _ listed => nomatch listed
    · rintro l bytes ⟨before, path, listed, -⟩
      simp at listed
    · rintro ⟨before, path, listed, -⟩
      simp at listed
  | first :: paths, fits => by
    obtain ⟨short, further⟩ := List.forall_mem_cons.mp fits
    rw [search_cons]
    by_cases nul : HasNul first
    · rw [if_pos (contains_iff.mpr nul)]
      apply Ends.of_stopped (barred_cons.mpr (.inl nul))
      · exact fun l bytes here => (first_cons.mp here).1 nul
      · exact fun none => (none first List.mem_cons_self).1 nul
    · rw [if_neg fun h => nul (contains_iff.mp h)]
      apply ((ends_searchIn short).andThen (ends_search further)).congr
      · intro l bytes
        simp [first_cons, nul]
      · simp [Fruitless, nul]
      · simp [barred_cons, nul]

end

/-! ### A name and all directories -/

/-- All places for a name are within the limits. -/
def Fits (d : Directories) (t : FileTree) (name : String) : Prop :=
  ∀ path ∈ d.searchPaths, ∀ x ∈ d.extensions, (place (base t path) name x).Fits

instance (d : Directories) (t : FileTree) (name : String) : Decidable (d.Fits t name) :=
  inferInstanceAs (Decidable (∀ path ∈ d.searchPaths, ∀ x ∈ d.extensions, _))

/-- The same is to be found in two trees at all locations in the directories. -/
structure AgreeWithin (d : Directories) (t t' : FileTree) : Prop where
  home : t'.home = t.home
  inside : ∀ path ∈ d.searchPaths, ∀ more : Location, ".." ∉ more →
    t'.follow (.ofLocation (base t path ++ more)) = t.follow (.ofLocation (base t path ++ more))

section

variable {t t' : FileTree} {d : Directories} {name : String}

/-- Two trees agree if all their directories are the same and all files in those that are
searched. -/
theorem agreeWithin_of_files (home : t'.home = t.home) (straight : ".." ∉ t.home)
    (directories : ∀ l, t'.isDirectory l = t.isDirectory l)
    (files : ∀ path ∈ d.searchPaths, ∀ more : Location,
      t'.files.lookup (base t path ++ more) = t.files.lookup (base t path ++ more)) :
    d.AgreeWithin t t' where
  home := home
  inside path listed more straight_more := by
    have whole : ".." ∉ base t path ++ more := by
      intro member
      rcases List.mem_append.mp member with there | there
      · exact Path.locate_straight straight _ there
      · exact straight_more there
    unfold FileTree.follow
    split
    · rfl
    · exact FileTree.walk_congr directories whole [] (files path listed more)

theorem ends_find (fits : d.Fits t name) :
    Ends (d.find t name)
      (fun l bytes => ¬ HasNul name ∧ First t name d.extensions d.searchPaths l bytes)
      (HasNul name ∨ Fruitless t name d.extensions d.searchPaths)
      (¬ HasNul name ∧ Barred t name d.extensions d.searchPaths) := by
  unfold find
  by_cases nul : HasNul name
  · rw [if_pos (contains_iff.mpr nul)]
    apply Ends.of_nothing (.inl nul)
    · exact fun l bytes here => here.1 nul
    · exact fun stop => stop.1 nul
  · rw [if_neg fun h => nul (contains_iff.mp h)]
    apply (ends_search fits).congr
    · intro l bytes
      simp [nul]
    · simp [nul]
    · simp [nul]

theorem load_of_find_error {f : Failure} (h : d.find t name = .error f) :
    d.load t name = .error f := by
  unfold load
  rw [h]
  rfl

/-- A template is not found if there is no file for it, and just then. -/
theorem load_eq_notFound_iff (fits : d.Fits t name) :
    d.load t name = .error (.of (.templateNotFound name)) ↔ d.find t name = .ok none := by
  constructor
  · intro missing
    rcases found : d.find t name with f | _ | ⟨l, bytes⟩
    · obtain ⟨rfl, -⟩ := ((ends_find fits).stopped f).mp found
      cases (load_of_find_error found).symm.trans missing
    · rfl
    · unfold load at missing
      simp only [found, bind, Except.bind] at missing
      split at missing
      · cases missing
      · split at missing <;> cases missing
  · intro nothing
    unfold load
    rw [nothing]
    rfl

theorem searchIn_congr {base : Location} (same : ∀ more : Location, ".." ∉ more →
    t'.follow (.ofLocation (base ++ more)) = t.follow (.ofLocation (base ++ more)))
    (extensions : List String) :
    searchIn t' name extensions base = searchIn t name extensions base := by
  induction extensions with
  | nil => rfl
  | cons extension extensions ih =>
    rw [searchIn_cons, searchIn_cons, ih]
    by_cases inside : (place base name extension).isWithin base = true
    · obtain ⟨more, there, straight⟩ := exists_inside inside
      rw [there, same more straight]
    · rw [if_neg inside, if_neg inside]

/-- **What lies outside of all directories makes no difference to what is found.** -/
theorem find_congr (agree : d.AgreeWithin t t') (name : String) :
    d.find t' name = d.find t name := by
  have further (paths : List String) (listed : ∀ path ∈ paths, path ∈ d.searchPaths) :
      search t' name d.extensions paths = search t name d.extensions paths := by
    induction paths with
    | nil => rfl
    | cons path paths ih =>
      obtain ⟨here, listed⟩ := List.forall_mem_cons.mp listed
      have same_base : base t' path = base t path := by
        unfold base
        rw [agree.home]
      rw [search_cons, search_cons, ih listed, same_base,
        searchIn_congr (agree.inside path here)]
  unfold find
  rw [further d.searchPaths fun _ listed => listed]

theorem load_congr (agree : d.AgreeWithin t t') (name : String) :
    d.load t' name = d.load t name := by
  unfold load
  rw [find_congr agree]

end

/-- A site with a file next to the directory of its pages. -/
def site (secret : String) : FileTree :=
  ⟨["w"], [(["w", "pages", "card.html"], "hi".toUTF8), (["w", "secret.html"], secret.toUTF8)], []⟩

/-- The pages of a site. -/
def pages : Directories :=
  ⟨["pages"], ["", ".html"], "utf-8"⟩

/-- The directory of the pages. -/
theorem base_pages (secret : String) : base (site secret) "pages" = ["w", "pages"] := by
  show (Path.ofText "pages").locate ["w"] = _
  decide

theorem agreeWithin_site (secret other : String) :
    pages.AgreeWithin (site secret) (site other) := by
  have straight : ".." ∉ ["w"] := by decide
  refine agreeWithin_of_files rfl straight (fun _ => rfl) fun path listed more => ?_
  cases List.mem_singleton.mp listed
  rw [base_pages]
  simp [site, List.lookup_cons]

/-- A directory with an extension that is no more than a NUL. -/
def nulExtension : Directories :=
  ⟨["."], ["\x00"], "utf-8"⟩

end Directories

end Stencil
