/-
# Why merges fail

A merge of a chain fails because a block stands inside itself, because an
imported macro is not there, or because a template that a tag in the chain leads
to fails. It never fails for want of a block or of a version of one: each block
that is expanded stands in a template of the chain, and so has a version.

Following the failures of other templates to where they arose leaves a trail: from
a template through the tags in its chain to the one in whose chain the merge
stops. It stops for the guard on templates in progress, for one of the first two
reasons, or because a template could not be loaded.

Key definitions: `Merging.Place.Sound`, `Merging.Snag`, `Merging.Blame`,
`Merging.Stop`, `Merging.Trail`, `Merging.Reason`.
Key theorems: `Merging.Merges.snag`, `Merging.Merges.trail`, `Merging.Merges.reason`.
-/
import Stencil.Proofs.Blocks
import Stencil.Proofs.Nesting

namespace Stencil

/-- The template that a tag leads to. -/
def Node.leadsTo? : Node → Option String
  | .inclusion template => some template
  | .imports template _ => some template
  | _ => none

namespace Merging

/-- A tag in a template of a chain leads to a name. -/
def LeadsTo (chain : List Template) (name : String) : Prop :=
  ∃ t ∈ chain, ∃ n ∈ walkAll t.tree, n.leadsTo? = some name

/-- A version of a block that is there. -/
def Exists (versions : Table (List (List Node))) (key : BlockKey) : Prop :=
  ∃ found, Table.find? key.1 versions = some found ∧ key.2 < found.length

/-- If a node is a block it has a version, and if it leads to a template then by one of some
names. -/
structure Placed (versions : Table (List (List Node))) (leads : String → Prop) (n : Node) : Prop where
  covered : Covered versions n
  led : ∀ name, n.leadsTo? = some name → leads name

/-- A place where all blocks have versions, as have all blocks in these, and from which tags lead to
some names only. -/
structure Place.Sound (p : Place) (leads : String → Prop) : Prop where
  nonempty : ∀ name, Table.find? name p.versions ≠ some []
  bodies : ∀ name found, Table.find? name p.versions = some found → ∀ body ∈ found,
    ∀ n ∈ walkAll body, Placed p.versions leads n
  enclosing : ∀ key ∈ p.enclosing.head?, Exists p.versions key

theorem placed_of_chain {chain : List Template} {t : Template} (ht : t ∈ chain) :
    ∀ n ∈ walkAll t.tree, Placed (Chain.versions chain) (LeadsTo chain) n :=
  fun n hn => ⟨covered_of_chain ht n hn, fun _ led => ⟨t, ht, n, hn, led⟩⟩

namespace Place.Sound

variable {p : Place} {leads : String → Prop}

theorem within (h : p.Sound leads) {key : BlockKey} (hk : Exists p.versions key) :
    (p.within key).Sound leads where
  nonempty := h.nonempty
  bodies := h.bodies
  enclosing := by
    rintro _ ⟨⟩
    exact hk

theorem top (h : p.Sound leads) {name : String} {found : List (List Node)}
    (hf : Table.find? name p.versions = some found) : Exists p.versions (p.top name) := by
  refine ⟨found, hf, ?_⟩
  have : found ≠ [] := fun none => h.nonempty name (none ▸ hf)
  have := List.length_pos_iff.mpr this
  simp only [Place.top, hf, Option.getD_some]
  omega

theorem above (h : p.Sound leads) {key : BlockKey} (hk : p.above = some key) : Exists p.versions key := by
  rcases p with ⟨_, versions, _, _ | ⟨⟨name, _ | level⟩, keys⟩⟩
  · cases hk
  · cases hk
  · cases hk
    obtain ⟨found, hf, hl⟩ := h.enclosing (name, level + 1) rfl
    exact ⟨found, hf, Nat.lt_of_succ_lt hl⟩

theorem of_chain (before : List String) (chain : List Template) :
    (Place.ofChain before chain).Sound (LeadsTo chain) where
  nonempty _ h := (Chain.find?_versions.mp h).2 rfl
  bodies := (everywhere_of_chain fun _ ht => placed_of_chain ht).versions
  enclosing := nofun

end Place.Sound

/-- What the nodes of a place can fail for, where templates are in progress and tags lead to some
names. -/
inductive Snag (look : String → Except Failure Template) (limit : Int) (active : List String)
    (leads : String → Prop) : Failure → Prop
  | selfContained (block : String) : Snag look limit active leads (.of (.selfContained block))
  | macroNotDefined (name template : String) :
    Snag look limit active leads (.of (.macroNotDefined name template))
  | other {name es f} (led : leads name) (merged : Reaches look limit active name es (.error f)) :
    Snag look limit active leads f

/-- What the merge of a chain can fail for, where templates are in progress. -/
inductive Blame (look : String → Except Failure Template) (limit : Int) (active : List String) :
    Failure → Prop
  | selfContained (block : String) : Blame look limit active (.of (.selfContained block))
  | macroNotDefined (name template : String) :
    Blame look limit active (.of (.macroNotDefined name template))
  | other {name es f} (merged : Reaches look limit active name es (.error f)) :
    Blame look limit active f

section

variable {look : String → Except Failure Template} {limit : Int}
  {leads : String → Prop}

mutual

theorem ExpandsNode.snag {p : Place} {n : Node} {d : Scratch} {es : List Event}
    {r : Except Failure (List Node)} {d' : Scratch} (h : ExpandsNode look limit p n d es r d')
    (sound : p.Sound leads) (placed : ∀ m ∈ n.walk, Placed p.versions leads m) :
    ∀ f, failure? r = some f → Snag look limit p.active leads f := by
  match h with
  | .text => exact fun _ hf => nomatch hf
  | .output => exact fun _ hf => nomatch hf
  | .assign => exact fun _ hf => nomatch hf
  | .inherit => exact fun _ hf => nomatch hf
  | .definition => exact fun _ hf => nomatch hf
  | .block version =>
    obtain ⟨found, hf⟩ := (placed _ (mem_walk_self _)).covered _ _ rfl
    rw [failure?_map]
    exact version.snag sound (sound.top hf)
  | .noParent _ => exact fun _ hf => nomatch hf
  | .parent above version => exact version.snag sound (sound.above above)
  | .inclusion _ => exact fun _ hf => nomatch hf
  | .inclusionFails merged =>
    rintro f ⟨⟩
    exact .other ((placed _ (mem_walk_self _)).led _ rfl) merged
  | .imports (r := r) merged taken =>
    rw [failure?_map]
    cases r with
    | ok _ => exact fun _ hf => nomatch hf
    | error f =>
      rintro _ ⟨⟩
      obtain ⟨name, rfl⟩ := importNames_failure _ _ taken
      exact .macroNotDefined name _
  | .importsFails merged =>
    rintro f ⟨⟩
    exact .other ((placed _ (mem_walk_self _)).led _ rfl) merged
  | .loop inner =>
    rw [failure?_map]
    exact inner.snag sound fun m hm => placed m (List.mem_cons_of_mem _ hm)
  | .choice inner others =>
    rw [failure?_map]
    exact others.snag sound fun m hm => placed m (by simp [Node.walk, hm])
  | .choiceFails inner => exact inner.snag sound fun m hm => placed m (by simp [Node.walk, hm])

theorem ExpandsRest.snag {p : Place} {a : Alternative} {d : Scratch} {es : List Event}
    {r : Except Failure Alternative} {d' : Scratch} (h : ExpandsRest look limit p a d es r d')
    (sound : p.Sound leads) (placed : ∀ m ∈ a.walk, Placed p.versions leads m) :
    ∀ f, failure? r = some f → Snag look limit p.active leads f := by
  match h with
  | .choice inner others =>
    rw [failure?_map]
    exact others.snag sound fun m hm => placed m (by simp [Alternative.walk, hm])
  | .choiceFails inner =>
    exact inner.snag sound fun m hm => placed m (by simp [Alternative.walk, hm])
  | .otherwise inner =>
    rw [failure?_map]
    exact inner.snag sound placed

theorem Expands.snag {p : Place} {ns : List Node} {d : Scratch} {es : List Event}
    {r : Except Failure (List Node)} {d' : Scratch} (h : Expands look limit p ns d es r d')
    (sound : p.Sound leads) (placed : ∀ m ∈ walkAll ns, Placed p.versions leads m) :
    ∀ f, failure? r = some f → Snag look limit p.active leads f := by
  match h with
  | .nil => exact fun _ hf => nomatch hf
  | .cons first others =>
    rw [failure?_map]
    exact others.snag sound fun m hm => placed m (List.mem_append_right _ hm)
  | .consFails first => exact first.snag sound fun m hm => placed m (List.mem_append_left _ hm)

theorem Resolves.snag {p : Place} {key : BlockKey} {d : Scratch} {es : List Event}
    {r : Except Failure (List Node)} {d' : Scratch} (h : Resolves look limit p key d es r d')
    (sound : p.Sound leads) (found : Exists p.versions key) :
    ∀ f, failure? r = some f → Snag look limit p.active leads f := by
  match h with
  | .noBlock unnamed =>
    obtain ⟨_, named, _⟩ := found
    cases unnamed.symm.trans named
  | .known _ _ => exact fun _ hf => nomatch hf
  | .again _ _ _ =>
    rintro _ ⟨⟩
    exact .selfContained _
  | .noVersion named _ _ absent =>
    obtain ⟨_, named', fits⟩ := found
    cases named.symm.trans named'
    exact absurd fits (Nat.not_lt.mpr (List.getElem?_eq_none_iff.mp absent))
  | .opens _ _ _ _ _ => exact fun _ hf => nomatch hf
  | .opensFails named _ _ version inner =>
    exact inner.snag (sound.within found) (sound.bodies _ _ named _ (List.mem_of_getElem? version))

end

theorem ExpandsMacros.snag {p : Place} {ms : Table Macro} {d : Scratch} {es : List Event}
    {r : Except Failure Unit} {d' : Scratch} (h : ExpandsMacros look limit p ms d es r d')
    (sound : p.Sound leads) (placed : ∀ m ∈ ms, ∀ n ∈ walkAll m.2.body, Placed p.versions leads n) :
    ∀ f, failure? r = some f → Snag look limit p.active leads f := by
  match h with
  | .nil => exact fun _ hf => nomatch hf
  | .cons _ others => exact others.snag sound fun m hm => placed m (List.mem_cons_of_mem _ hm)
  | .consFails first => exact first.snag sound (placed _ List.mem_cons_self)

/-- What a merge fails for once its chain is loaded: a tag in the chain may lead to the reason. -/
theorem Merges.snag {before : List String} {leaf : Template} {es es' : List Event} {f : Failure}
    {chain : List Template} (h : Merges look limit before leaf es (.error f))
    (climb : Climbs look limit before leaf.name [] leaf es' (.ok chain)) :
    Snag look limit (before ++ chain.map Template.name) (LeadsTo chain) f := by
  have sound : (Place.ofChain before chain).Sound (LeadsTo chain) := .of_chain before chain
  have all := everywhere_of_chain fun t (ht : t ∈ chain) => placed_of_chain ht
  generalize hr : (Except.error f : Except Failure Merged) = r at h
  cases h with
  | refused climb' => cases (climb.det climb').2
  | macrosFail climb' macros =>
    cases (climb.det climb').2
    cases hr
    exact macros.snag sound all.macros f rfl
  | @expands _ _ _ _ _ _ _ r _ climb' _ nodes =>
    cases (climb.det climb').2
    cases r with
    | ok _ => cases hr
    | error g =>
      cases hr
      exact nodes.snag sound all.nodes f rfl

/-- What a merge fails for once its chain is loaded. -/
theorem Merges.blame {before : List String} {leaf : Template} {es es' : List Event} {f : Failure}
    {chain : List Template} (h : Merges look limit before leaf es (.error f))
    (climb : Climbs look limit before leaf.name [] leaf es' (.ok chain)) :
    Blame look limit (before ++ chain.map Template.name) f := by
  cases h.snag climb with
  | selfContained block => exact .selfContained block
  | macroNotDefined name template => exact .macroNotDefined name template
  | other _ merged => exact .other merged

/-! ### Trails -/

/-- Where a merge stops. -/
inductive Stop where
  | circular (names : List String)
  | tooDeep (limit : Int) (leaf : String)
  | selfContained (block : String)
  | macroNotDefined (name template : String)
  /-- The template with a name cannot be loaded. -/
  | lost (name : String) (f : Failure)

/-- The failure of a merge that stops there. -/
def Stop.failure : Stop → Failure
  | circular names => .of (.circular names)
  | tooDeep limit leaf => .error ⟨.templateNesting limit, none, some leaf⟩
  | selfContained block => .of (.selfContained block)
  | macroNotDefined name template => .of (.macroNotDefined name template)
  | lost _ f => f

/-- How a merge comes to where it stops. The chain of a template is not loaded: a template would
enter that is in progress, or that is one more than the limit allows, or there is none of the name
that is next. Or it is loaded, and the merge stops in it or at a name that a tag in it leads to, or
goes on to the template of such a name. -/
inductive Trail (look : String → Except Failure Template) (limit : Int) :
    List String → Template → Stop → Prop
  | circular {before t es f stack name}
    (climb : Climbs look limit before t.name [] t es (.error f))
    (last : es.getLast? = some (.entering stack name)) (known : name ∈ stack) :
    Trail look limit before t (.circular (stack ++ [name]))
  | tooDeep {before t es f} {stack : List String} {name}
    (climb : Climbs look limit before t.name [] t es (.error f))
    (last : es.getLast? = some (.entering stack name)) (new : name ∉ stack)
    (full : limit < stack.length + 1) : Trail look limit before t (.tooDeep limit t.name)
  | ancestor {before t es f name} (climb : Climbs look limit before t.name [] t es (.error f))
    (last : es.getLast? = some (.lost name)) (missing : look name = .error f) :
    Trail look limit before t (.lost name f)
  | selfContained {before t es chain} (climb : Climbs look limit before t.name [] t es (.ok chain))
    (block : String) : Trail look limit before t (.selfContained block)
  | macroNotDefined {before t es chain}
    (climb : Climbs look limit before t.name [] t es (.ok chain)) (name template : String) :
    Trail look limit before t (.macroNotDefined name template)
  | tag {before t es chain name f} (climb : Climbs look limit before t.name [] t es (.ok chain))
    (led : LeadsTo chain name) (missing : look name = .error f) :
    Trail look limit before t (.lost name f)
  | onward {before t es chain name u stop}
    (climb : Climbs look limit before t.name [] t es (.ok chain)) (led : LeadsTo chain name)
    (found : look name = .ok u) (rest : Trail look limit (before ++ chain.map Template.name) u stop) :
    Trail look limit before t stop

/-- Why a chain is not loaded. -/
theorem Climbs.stopped {before : List String} {leaf : String} {chain : List Template} {t : Template}
    {es : List Event} {r : Except Failure (List Template)}
    (h : Climbs look limit before leaf chain t es r) : ∀ f, failure? r = some f →
      (∃ stack name, es.getLast? = some (.entering stack name) ∧ name ∈ stack ∧
        f = .of (.circular (stack ++ [name]))) ∨
      (∃ stack name, es.getLast? = some (.entering stack name) ∧ name ∉ stack ∧
        limit < stack.length + 1 ∧ f = .error ⟨.templateNesting limit, none, some leaf⟩) ∨
      ∃ name, es.getLast? = some (.lost name) ∧ look name = .error f := by
  induction h with
  | circular known =>
    rintro _ ⟨⟩
    exact .inl ⟨_, _, rfl, known, rfl⟩
  | tooDeep new full =>
    rintro _ ⟨⟩
    exact .inr (.inl ⟨_, _, rfl, new, full, rfl⟩)
  | root _ _ _ => exact fun _ hf => nomatch hf
  | lost _ _ _ missing =>
    rintro _ ⟨⟩
    exact .inr (.inr ⟨_, rfl, missing⟩)
  | @parent _ _ _ _ es _ _ _ _ _ _ ih =>
    intro f hf
    have last {e : Event} (h : es.getLast? = some e) (first second : Event) :
        (first :: second :: es).getLast? = some e := by
      rw [List.getLast?_cons, List.getLast?_cons, h]
      rfl
    rcases ih f hf with ⟨stack, name, h, why⟩ | ⟨stack, name, h, why⟩ | ⟨name, h, why⟩
    · exact .inl ⟨stack, name, last h _ _, why⟩
    · exact .inr (.inl ⟨stack, name, last h _ _, why⟩)
    · exact .inr (.inr ⟨name, last h _ _, why⟩)

/-- **A merge that fails has come to where it stops.** The induction is on how many templates the
limit leaves. -/
theorem Merges.trail {before : List String} {leaf : Template} {es : List Event} {f : Failure}
    (h : Merges look limit before leaf es (.error f)) :
    ∃ stop, Trail look limit before leaf stop ∧ stop.failure = f := by
  generalize hroom : (limit - before.length).toNat = room
  induction room using Nat.strongRecOn generalizing before leaf es with
  | ind room ih =>
    by_cases hc : ∃ es' chain, Climbs look limit before leaf.name [] leaf es' (.ok chain)
    · obtain ⟨es', chain, climb⟩ := hc
      cases h.snag climb with
      | selfContained block => exact ⟨_, .selfContained climb block, rfl⟩
      | macroNotDefined name template => exact ⟨_, .macroNotDefined climb name template, rfl⟩
      | other led merged =>
        generalize hr : (Except.error f : Except Failure Merged) = r at merged
        cases merged with
        | lost missing =>
          cases hr
          exact ⟨_, .tag climb led missing, rfl⟩
        | merged found merge =>
          subst hr
          obtain ⟨more, few⟩ := length_of_climbs climb rfl
          simp only [stack, List.reverse_nil, List.map_nil, List.append_nil] at more
          obtain ⟨stop, rest, same⟩ := ih _ (by omega) merge rfl
          exact ⟨stop, .onward climb led found rest, same⟩
    · generalize hr : (Except.error f : Except Failure Merged) = r at h
      cases h with
      | refused climb =>
        cases hr
        rcases climb.stopped _ rfl with ⟨_, _, last, known, rfl⟩ | ⟨_, _, last, new, full, rfl⟩ |
          ⟨_, last, missing⟩
        · exact ⟨_, .circular climb last known, rfl⟩
        · exact ⟨_, .tooDeep climb last new full, rfl⟩
        · exact ⟨_, .ancestor climb last missing, rfl⟩
      | macrosFail climb _ => exact absurd ⟨_, _, climb⟩ hc
      | expands climb _ _ => exact absurd ⟨_, _, climb⟩ hc

/-- What is so of where a merge stops, whatever trail leads there. -/
def Stop.Sound (look : String → Except Failure Template) (limit : Int) : Stop → Prop
  | tooDeep other _ => other = limit
  | lost name f => look name = .error f
  | _ => True

theorem Trail.sound {before : List String} {t : Template} {stop : Stop}
    (h : Trail look limit before t stop) : stop.Sound look limit := by
  induction h with
  | circular _ _ _ => trivial
  | tooDeep _ _ _ _ => rfl
  | ancestor _ _ missing => exact missing
  | selfContained _ _ => trivial
  | macroNotDefined _ _ _ => trivial
  | tag _ _ missing => exact missing
  | onward _ _ _ _ ih => exact ih

/-- Why the merge of a template with everything that it leads to fails. -/
inductive Reason (look : String → Except Failure Template) : Failure → Prop
  | circular (names : List String) : Reason look (.of (.circular names))
  | tooDeep (limit : Int) (leaf : String) :
    Reason look (.error ⟨.templateNesting limit, none, some leaf⟩)
  | selfContained (block : String) : Reason look (.of (.selfContained block))
  | macroNotDefined (name template : String) : Reason look (.of (.macroNotDefined name template))
  | lost {name f} (found : look name = .error f) : Reason look f

theorem Stop.Sound.reason {stop : Stop} (h : stop.Sound look limit) : Reason look stop.failure := by
  cases stop with
  | circular names => exact .circular names
  | tooDeep limit leaf => exact .tooDeep limit leaf
  | selfContained block => exact .selfContained block
  | macroNotDefined name template => exact .macroNotDefined name template
  | lost name f => exact .lost h

/-- **A merge fails for the guard on templates in progress, for a block inside itself, for an import
of a macro that is not there, or for a template that cannot be loaded.** -/
theorem Merges.reason {before : List String} {leaf : Template} {es : List Event} {f : Failure}
    (h : Merges look limit before leaf es (.error f)) : Reason look f := by
  obtain ⟨stop, trail, rfl⟩ := h.trail
  exact trail.sound.reason

end

end Merging

end Stencil
