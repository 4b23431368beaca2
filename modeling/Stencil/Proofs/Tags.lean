/-
# The tags that a merge comes to

Which include and import tags are executed when a chain is merged, and in which
order, can be read off the chain. The bodies of its macros are walked first and
then its content. At a block the walk goes into the version that is nearest to
the leaf, at a parent mark into the next version towards the root, and into each
version only once, because what it becomes is kept.

A merge that succeeds leaves its macros as these tags say. An import of a macro
that the chain does not define puts the macro in its place, whatever was there.
An include puts the macros of its template only where there is nothing. So a
name that the chain does not define has the macro of the last import of it, or
else what was there before, or else the macro of the first include that has one.

Key definitions: `Tag`, `Tour`, `Merging.tourNodes`, `Merging.visit`,
`Chain.tags`, `Tag.lastImport?`, `Tag.firstSupply?`, `Merging.Runs`.
Key theorems: `Merging.importNames_find`, `Merging.Expands.runs`.
-/
import Stencil.Proofs.Inheritance
import Stencil.Proofs.Tables

namespace Stencil

/-- A macro as an import takes it: it sees the macros that it saw before, or those of its
template. -/
def Macro.taken (m : Macro) (source : Table Macro) : Macro :=
  .mk m.parameters m.body (some (m.scope.getD source))

theorem Macro.taken_eq (m : Macro) (source : Table Macro) :
    (if m.scope.isSome then m else m.inScope source) = m.taken source := by
  rcases m with ⟨parameters, body, _ | scope⟩ <;> rfl

/-- The macro that an import of a name takes from a template. -/
def Merged.taken? (name : String) (m : Merged) : Option Macro :=
  (Table.find? name m.macros).map fun q => q.taken m.macros

/-- A tag that leads to another template. -/
inductive Tag where
  | inclusion (template : String)
  | imports (template : String) (names : List String)
  deriving DecidableEq, Repr

namespace Tag

/-- The template that a tag imports a macro from, if it does. -/
def import? (name : String) : Tag → Option String
  | inclusion _ => none
  | imports template names => if name ∈ names then some template else none

/-- The macro that a tag has for a name by way of an include; `alone` are the templates as they are
merged by themselves. -/
def supply? (alone : String → Option Merged) (name : String) : Tag → Option Macro
  | inclusion template => (alone template).bind fun m => Table.find? name m.macros
  | imports _ _ => none

/-- The template that a macro is imported from by the last tag that imports it. -/
def lastImport? (name : String) (tags : List Tag) : Option String :=
  tags.reverse.findSome? (import? name)

/-- The macro with a name in the first included template that has one. -/
def firstSupply? (alone : String → Option Merged) (name : String) (tags : List Tag) :
    Option Macro :=
  tags.findSome? (supply? alone name)

/-- The macro that the last import of a name takes. -/
def imported? (alone : String → Option Merged) (name : String) (tags : List Tag) : Option Macro :=
  (lastImport? name tags).bind fun template =>
    (alone template).bind (Merged.taken? name)

theorem lastImport?_append (name : String) (tags more : List Tag) :
    lastImport? name (tags ++ more) = (lastImport? name more).or (lastImport? name tags) := by
  simp [lastImport?, List.findSome?_append]

theorem firstSupply?_append (alone : String → Option Merged) (name : String)
    (tags more : List Tag) :
    firstSupply? alone name (tags ++ more) =
      (firstSupply? alone name tags).or (firstSupply? alone name more) :=
  List.findSome?_append

end Tag

/-! ### Tours

A walk is told which versions of blocks were opened before; it says which tags it
comes to and which versions are open then. -/

/-- The tags on a walk, and the versions of blocks that are open after it, given those before it. -/
abbrev Tour := List BlockKey → List Tag × List BlockKey

namespace Tour

def stay : Tour := fun opened => ([], opened)

def meet (tag : Tag) : Tour := fun opened => ([tag], opened)

def andThen (a b : Tour) : Tour := fun opened =>
  ((a opened).1 ++ (b (a opened).2).1, (b (a opened).2).2)

/-- The walk inside of a version, unless it is open. -/
def once (key : BlockKey) (inside : Tour) : Tour := fun opened =>
  if key ∈ opened then ([], opened) else ((inside opened).1, key :: (inside opened).2)

theorem once_of_mem {key : BlockKey} {opened : List BlockKey} (h : key ∈ opened) (inside : Tour) :
    once key inside opened = ([], opened) :=
  if_pos h

theorem once_of_not_mem {key : BlockKey} {opened : List BlockKey} (h : key ∉ opened)
    (inside : Tour) :
    once key inside opened = ((inside opened).1, key :: (inside opened).2) :=
  if_neg h

theorem andThen_assoc (a b c : Tour) : (a.andThen b).andThen c = a.andThen (b.andThen c) := by
  funext opened
  simp [andThen]

end Tour

namespace Merging

/-- Where blocks and parent marks lead. -/
structure Guide where
  block : String → Tour
  parent : Tour

mutual

/-- The walk through a node. -/
def tourNode (g : Guide) : Node → Tour
  | .block name _ => g.block name
  | .parent => g.parent
  | .inclusion template => .meet (.inclusion template)
  | .imports template names => .meet (.imports template names)
  | .loop _ _ _ body => tourNodes g body
  | .choice _ body rest => (tourNodes g body).andThen (tourAlternative g rest)
  | .inherit _ => .stay
  | .definition _ _ _ => .stay
  | .text _ => .stay
  | .output _ => .stay
  | .assign _ _ => .stay

def tourAlternative (g : Guide) : Alternative → Tour
  | .choice _ body rest => (tourNodes g body).andThen (tourAlternative g rest)
  | .otherwise body => tourNodes g body

/-- The walk through nodes in order. -/
def tourNodes (g : Guide) : List Node → Tour
  | [] => .stay
  | n :: ns => (tourNode g n).andThen (tourNodes g ns)

end

/-- What leads where at a place, when `visit` goes into versions of blocks. -/
def Place.guide (p : Place) (visit : BlockKey → Tour) : Guide where
  block name := visit (p.top name)
  parent :=
    match p.above with
    | some key => visit key
    | none => .stay

/-- The walk into a version of a block at a place; `room` more may be opened inside of it. -/
def visit : Nat → Place → BlockKey → Tour
  | 0, _, _ => .stay
  | room + 1, p, key =>
    .once key <|
      match (Table.find? key.1 p.versions).bind (·[key.2]?) with
      | some body => tourNodes ((p.within key).guide (visit room (p.within key))) body
      | none => .stay

/-- The walk through nodes of a chain that stand in no block. -/
def tourChain (chain : List Template) (ns : List Node) : Tour :=
  let p := Place.ofChain [] chain
  tourNodes (p.guide (visit (Merge.versionCount (Chain.versions chain)) p)) ns

end Merging

/-- The tags that a merge of a chain comes to, in order: those in its macros, and those in its
content. The templates that they lead to are merged by themselves, with tags of their own. -/
def Chain.tags (chain : List Template) : List Tag :=
  (Merging.tourChain chain ((Chain.macros chain).flatMap (fun m => m.2.body) ++
    Merging.content chain) []).1

namespace Merging

theorem tourNodes_append (g : Guide) (ns ms : List Node) :
    tourNodes g (ns ++ ms) = (tourNodes g ns).andThen (tourNodes g ms) := by
  induction ns with
  | nil =>
    funext opened
    simp [tourNodes, Tour.andThen, Tour.stay]
  | cons n ns ih =>
    rw [List.cons_append, tourNodes, tourNodes, ih, Tour.andThen_assoc]

/-! ### What tags do to the macros -/

/-- An include adds the macros whose names are free. -/
theorem find?_adopt (name : String) (macros : Table Macro) (d : Scratch) :
    Table.find? name (d.adopt macros).macros =
      (Table.find? name d.macros).or (Table.find? name macros) :=
  Table.find?_fill name macros d.macros

/-- **An import puts the macros that it names in their places**, except for those that the chain
defines, and it changes no others. -/
theorem importNames_find {defined : List String} {template : String} {m : Merged} {d' : Scratch}
    {u : Unit} : ∀ (names : List String) (d : Scratch),
    Merge.importNames defined template m.macros names d = (.ok u, d') → ∀ name,
      (name ∈ names → (m.taken? name).isSome) ∧
      Table.find? name d'.macros =
        if name ∈ names ∧ name ∉ defined then m.taken? name else Table.find? name d.macros
  | [], d, run, name => by
    cases (show (Except.ok (), d) = (Except.ok u, d') from run)
    simp
  | first :: names, d, run, name => by
    rcases found : Table.find? first m.macros with _ | q
    · rw [importNames_missing found] at run
      cases run
    rw [importNames_found found, Macro.taken_eq] at run
    obtain ⟨known, places⟩ := importNames_find names _ run name
    have taken : m.taken? first = some (q.taken m.macros) := by simp [Merged.taken?, found]
    constructor
    · intro member
      rcases List.mem_cons.mp member with rfl | later
      · simp [taken]
      · exact known later
    · rw [places]
      by_cases later : name ∈ names ∧ name ∉ defined
      · rw [if_pos later, if_pos ⟨List.mem_cons_of_mem _ later.1, later.2⟩]
      rw [if_neg later]
      have absent (own : name = first → first ∈ defined) :
          ¬ (name ∈ first :: names ∧ name ∉ defined) := by
        rintro ⟨member, free⟩
        rcases List.mem_cons.mp member with here | further
        · exact free (here ▸ own here)
        · exact later ⟨further, free⟩
      by_cases own : first ∈ defined
      · rw [if_pos (List.contains_iff_mem.mpr own), if_neg (absent fun _ => own)]
      · have fresh : ¬ defined.contains first = true := fun h => own (List.contains_iff_mem.mp h)
        rw [if_neg fresh]
        by_cases same : name = first
        · subst same
          rw [if_pos ⟨List.mem_cons_self, own⟩, taken]
          exact Table.find?_put name _ d.macros
        · rw [if_neg (absent fun here => absurd here same)]
          exact Table.find?_put_ne same _ d.macros

/-- What some tags do to a table of macros: what they import is there, and a name that the chain
does not define has the macro of the last import, or what was there, or what the first include
has. -/
structure Writes (alone : String → Option Merged) (defined : List String) (tags : List Tag)
    (t t' : Table Macro) : Prop where
  given : ∀ name, (Tag.lastImport? name tags).isSome → (Tag.imported? alone name tags).isSome
  free : ∀ name, name ∉ defined → Table.find? name t' =
    (Tag.imported? alone name tags).or ((Table.find? name t).or (Tag.firstSupply? alone name tags))

/-- The macros of names that the chain defines stay once they are there. -/
def Keeps (defined : List String) (t t' : Table Macro) : Prop :=
  ∀ name ∈ defined, ∀ q, Table.find? name t = some q → Table.find? name t' = some q

namespace Writes

variable {alone : String → Option Merged} {defined : List String} {tags more : List Tag}
  {t t' t'' : Table Macro}

theorem nil : Writes alone defined [] t t where
  given _ h := nomatch h
  free name _ := by simp [Tag.imported?, Tag.lastImport?, Tag.firstSupply?]

/-- The last import of a name is among the later tags, unless these import it nowhere. -/
theorem imported?_append (h : Writes alone defined more t' t'') (name : String) :
    Tag.imported? alone name (tags ++ more) =
      (Tag.imported? alone name more).or (Tag.imported? alone name tags) := by
  have given := h.given name
  unfold Tag.imported? at given ⊢
  rw [Tag.lastImport?_append]
  cases last : Tag.lastImport? name more with
  | none => simp
  | some template =>
    rw [last] at given
    obtain ⟨q, taken⟩ := Option.isSome_iff_exists.mp (given rfl)
    simp only [Option.bind_some] at taken
    simp [taken]

theorem append (h : Writes alone defined tags t t') (h' : Writes alone defined more t' t'') :
    Writes alone defined (tags ++ more) t t'' where
  given name some := by
    rw [h'.imported?_append]
    rw [Tag.lastImport?_append, Option.isSome_or, Bool.or_eq_true] at some
    rw [Option.isSome_or, Bool.or_eq_true]
    exact some.imp (h'.given name) (h.given name)
  free name new := by
    rw [h'.free name new, h.free name new, h'.imported?_append, Tag.firstSupply?_append]
    simp only [Option.or_assoc]

/-- What the chain itself puts under a name that it defines is of no concern. -/
theorem put {name : String} (own : name ∈ defined) (q : Macro)
    (h : Writes alone defined tags (Table.put name q t) t') : Writes alone defined tags t t' where
  given := h.given
  free other new := by
    have differ : other ≠ name := fun e => new (e ▸ own)
    rw [h.free other new, Table.find?_put_ne differ]

/-- If a name is imported at all, the last import of it counts. -/
theorem last_import (h : Writes alone defined tags [] t') {name template : String}
    (new : name ∉ defined) (last : Tag.lastImport? name tags = some template) :
    ∃ m q, alone template = some m ∧ Table.find? name m.macros = some q ∧
      Table.find? name t' = some (q.taken m.macros) := by
  have given := h.given name (by rw [last]; rfl)
  obtain ⟨taken, imported⟩ := Option.isSome_iff_exists.mp given
  have found : Table.find? name t' = some taken := by
    rw [h.free name new, imported, Option.some_or]
  rw [Tag.imported?, last, Option.bind_some] at imported
  obtain ⟨m, led, inside⟩ := Option.bind_eq_some_iff.mp imported
  obtain ⟨q, there, rfl⟩ := Option.map_eq_some_iff.mp inside
  exact ⟨m, q, led, there, found⟩

/-- If a name is not imported, the first include counts that has it. -/
theorem first_supply (h : Writes alone defined tags [] t') {name : String} (new : name ∉ defined)
    (last : Tag.lastImport? name tags = none) :
    Table.find? name t' = Tag.firstSupply? alone name tags :=
  calc Table.find? name t'
      = (Tag.imported? alone name tags).or (none.or (Tag.firstSupply? alone name tags)) :=
        h.free name new
    _ = Tag.firstSupply? alone name tags := by
        rw [Tag.imported?, last, Option.bind_none, Option.none_or, Option.none_or]

end Writes

/-- A walk is what expansion comes to on its way from one scratch to another. -/
structure Runs (alone : String → Option Merged) (defined : List String) (tour : Tour)
    (d d' : Scratch) : Prop where
  opened : (tour (d.resolved.map (·.1))).2 = d'.resolved.map (·.1)
  writes : Writes alone defined (tour (d.resolved.map (·.1))).1 d.macros d'.macros
  keeps : Keeps defined d.macros d'.macros

namespace Runs

variable {alone : String → Option Merged} {defined : List String} {tour tour' : Tour}
  {d d' d'' : Scratch}

theorem stay : Runs alone defined .stay d d where
  opened := rfl
  writes := .nil
  keeps _ _ _ h := h

theorem andThen (h : Runs alone defined tour d d') (h' : Runs alone defined tour' d' d'') :
    Runs alone defined (tour.andThen tour') d d'' where
  opened := by
    show (tour' (tour _).2).2 = _
    rw [h.opened, h'.opened]
  writes := by
    show Writes alone defined ((tour _).1 ++ (tour' (tour _).2).1) _ _
    rw [h.opened]
    exact h.writes.append h'.writes
  keeps name own q found := h'.keeps name own q (h.keeps name own q found)

theorem inclusion {template : String} {m : Merged} (led : alone template = some m) :
    Runs alone defined (.meet (.inclusion template)) d (d.adopt m.macros) where
  opened := rfl
  writes := {
    given := fun _ h => nomatch h
    free := fun name _ => by
      have supplied : Tag.firstSupply? alone name [.inclusion template] =
          Table.find? name m.macros := by
        simp [Tag.firstSupply?, Tag.supply?, led]
      show _ = Option.or none
        ((Table.find? name d.macros).or (Tag.firstSupply? alone name [.inclusion template]))
      rw [supplied, find?_adopt, Option.none_or] }
  keeps name _ q found := by rw [find?_adopt, found, Option.some_or]

theorem imports {template : String} {names : List String} {m : Merged} {u : Unit}
    (led : alone template = some m)
    (run : Merge.importNames defined template m.macros names d = (.ok u, d')) :
    Runs alone defined (.meet (.imports template names)) d d' := by
  have changes := importNames_find names d run
  have last (name : String) : Tag.imported? alone name [.imports template names] =
      if name ∈ names then m.taken? name else none := by
    by_cases member : name ∈ names <;>
      simp [Tag.imported?, Tag.lastImport?, Tag.import?, member, led]
  refine ⟨?_, ⟨?_, ?_⟩, ?_⟩
  · rw [importNames_resolved names d run]
    rfl
  · intro name imported
    show (Tag.imported? alone name [.imports template names]).isSome
    have member : name ∈ names := by
      by_contra absent
      simp [Tour.meet, Tag.lastImport?, Tag.import?, absent] at imported
    rw [last, if_pos member]
    exact (changes name).1 member
  · intro name new
    show _ = (Tag.imported? alone name [.imports template names]).or
      ((Table.find? name d.macros).or none)
    rw [(changes name).2, last]
    by_cases member : name ∈ names
    · obtain ⟨q, taken⟩ := Option.isSome_iff_exists.mp ((changes name).1 member)
      rw [if_pos ⟨member, new⟩, if_pos member, taken, Option.some_or]
    · have absent : ¬ (name ∈ names ∧ name ∉ defined) := fun h => member h.1
      rw [if_neg absent, if_neg member, Option.none_or, Option.or_none]
  · intro name own q found
    have absent : ¬ (name ∈ names ∧ name ∉ defined) := fun h => h.2 own
    rw [(changes name).2, if_neg absent, found]

/-- A version that is kept is not walked through again. -/
theorem known {key : BlockKey} {inside : Tour} (open_ : key ∈ d.resolved.map (·.1)) :
    Runs alone defined (.once key inside) d d where
  opened := by rw [Tour.once_of_mem open_]
  writes := by
    rw [Tour.once_of_mem open_]
    exact .nil
  keeps _ _ _ h := h

/-- A version that was walked through is kept. -/
theorem opens {key : BlockKey} {inside : Tour} (closed : key ∉ d.resolved.map (·.1))
    (h : Runs alone defined inside d d') (body : List Node) :
    Runs alone defined (.once key inside) d (d'.keep key body) where
  opened := by
    rw [Tour.once_of_not_mem closed]
    show key :: (inside _).2 = key :: _
    rw [h.opened]
  writes := by
    rw [Tour.once_of_not_mem closed]
    exact h.writes
  keeps := h.keeps

end Runs

/-! ### Expansion is a walk

Versions that are kept are the ones that are open. There is room for the walk
because a merge that succeeds opens no version inside of itself. -/

section

variable {look : String → Except Failure Template} {limit : Int} {alone : String → Option Merged}

/-- Each template that a merge leads to is what it is by itself. -/
def Finds (look : String → Except Failure Template) (limit : Int) (alone : String → Option Merged)
    (active : List String) : Prop :=
  ∀ name es m, Reaches look limit active name es (.ok m) → alone name = some m

theorem mem_opened {d : Scratch} {key : BlockKey} :
    key ∈ d.resolved.map (·.1) ↔ d.resolved.lookup key ≠ none := by
  induction d.resolved with
  | nil => simp
  | cons q kept ih =>
    rw [List.map_cons, List.mem_cons, ih, List.lookup_cons]
    by_cases same : key = q.1
    · simp [same]
    · have other : (key == q.1) = false := by simpa using same
      simp [same, other]

mutual

theorem ExpandsNode.runs {p : Place} {n : Node} {d : Scratch} {es : List Event}
    {r : Except Failure (List Node)} {d' : Scratch} (h : ExpandsNode look limit p n d es r d')
    (finds : Finds look limit alone p.active) {room : Nat} (roomy : Roomy p room) :
    ∀ made, r = .ok made →
      Runs alone p.defined (tourNode (p.guide (visit room p)) n) d d' := by
  match h with
  | .text => exact fun _ _ => .stay
  | .output => exact fun _ _ => .stay
  | .assign => exact fun _ _ => .stay
  | .inherit => exact fun _ _ => .stay
  | .definition => exact fun _ _ => .stay
  | .block version =>
    intro _ hr
    obtain ⟨body, made, -⟩ := ok_of_map hr
    exact version.runs finds roomy body made
  | .noParent lowest =>
    intro _ _
    rw [tourNode, Place.guide, lowest]
    exact .stay
  | .parent above version =>
    intro made hr
    rw [tourNode, Place.guide, above]
    exact version.runs finds roomy made hr
  | .inclusion merged => exact fun _ _ => .inclusion (finds _ _ _ merged)
  | .inclusionFails _ => exact nofun
  | .imports merged taken =>
    intro _ hr
    obtain ⟨_, rfl, -⟩ := ok_of_map hr
    exact .imports (finds _ _ _ merged) taken
  | .importsFails _ => exact nofun
  | .loop inner =>
    intro _ hr
    obtain ⟨body, made, -⟩ := ok_of_map hr
    exact inner.runs finds roomy body made
  | .choice inner others =>
    intro _ hr
    obtain ⟨rest, made, -⟩ := ok_of_map hr
    exact (inner.runs finds roomy _ rfl).andThen (others.runs finds roomy rest made)
  | .choiceFails _ => exact nofun

theorem ExpandsRest.runs {p : Place} {a : Alternative} {d : Scratch} {es : List Event}
    {r : Except Failure Alternative} {d' : Scratch} (h : ExpandsRest look limit p a d es r d')
    (finds : Finds look limit alone p.active) {room : Nat} (roomy : Roomy p room) :
    ∀ made, r = .ok made →
      Runs alone p.defined (tourAlternative (p.guide (visit room p)) a) d d' := by
  match h with
  | .choice inner others =>
    intro _ hr
    obtain ⟨rest, made, -⟩ := ok_of_map hr
    exact (inner.runs finds roomy _ rfl).andThen (others.runs finds roomy rest made)
  | .choiceFails _ => exact nofun
  | .otherwise inner =>
    intro _ hr
    obtain ⟨body, made, -⟩ := ok_of_map hr
    exact inner.runs finds roomy body made

/-- **Nodes that are expanded leave the macros as the tags on the walk through them say.** -/
theorem Expands.runs {p : Place} {ns : List Node} {d : Scratch} {es : List Event}
    {r : Except Failure (List Node)} {d' : Scratch} (h : Expands look limit p ns d es r d')
    (finds : Finds look limit alone p.active) {room : Nat} (roomy : Roomy p room) :
    ∀ made, r = .ok made →
      Runs alone p.defined (tourNodes (p.guide (visit room p)) ns) d d' := by
  match h with
  | .nil => exact fun _ _ => .stay
  | .cons first others =>
    intro _ hr
    obtain ⟨more, made, -⟩ := ok_of_map hr
    exact (first.runs finds roomy _ rfl).andThen (others.runs finds roomy more made)
  | .consFails _ => exact nofun

theorem Resolves.runs {p : Place} {key : BlockKey} {d : Scratch} {es : List Event}
    {r : Except Failure (List Node)} {d' : Scratch} (h : Resolves look limit p key d es r d')
    (finds : Finds look limit alone p.active) {room : Nat} (roomy : Roomy p room) :
    ∀ made, r = .ok made → Runs alone p.defined (visit room p key) d d' := by
  match h with
  | .noBlock _ => exact nofun
  | .known _ kept =>
    intro _ _
    cases room with
    | zero => exact .stay
    | succ room =>
      have opened : key ∈ d.resolved.map (·.1) := mem_opened.mpr (by rw [kept]; exact nofun)
      exact .known opened
  | .again _ _ _ => exact nofun
  | .noVersion _ _ _ _ => exact nofun
  | .opens named new outside version inner =>
    rename_i bodies body out d'
    intro _ _
    have exist : key ∈ keys p.versions := mem_keys named (List.getElem?_eq_some_iff.mp version).1
    obtain ⟨room, rfl⟩ := Nat.exists_eq_succ_of_ne_zero (roomy.ne_zero outside exist)
    have closed : key ∉ d.resolved.map (·.1) := fun h => mem_opened.mp h new
    have within : Runs alone p.defined
        (tourNodes ((p.within key).guide (visit room (p.within key))) body) d d' :=
      inner.runs finds (roomy.within outside exist) _ rfl
    have here : (Table.find? key.1 p.versions).bind (·[key.2]?) = some body := by
      rw [named]
      exact version
    show Runs alone p.defined (visit (room + 1) p key) d (d'.keep key out)
    rw [visit, here]
    exact .opens closed within out
  | .opensFails _ _ _ _ _ => exact nofun

end

end

end Merging

end Stencil
