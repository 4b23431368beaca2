/-
# Walking up a chain

A template is checked in two passes: the chain of the templates above it is walked
first, and then the template is merged. The walk keeps no account of where it has
been. So it ends just if the chain does, and a chain that runs into a cycle is walked
for ever, although a merge refuses it as circular. Nothing else in a request goes on
for ever.

The templates of a request come from finitely many files. So there is always one of
the two: the walk ends after no more steps than there are files, or the chain runs
into a cycle.

Key theorems: `Merging.Climbs.circular_of_cyclic`, `CommandLine.extendsChain_of_ascends`,
`CommandLine.extendsChain_endless`, `CommandLine.endless_iff`.
-/
import Stencil.CommandLine.Outcome
import Stencil.Proofs.Ancestry
import Stencil.Proofs.Determinism
import Stencil.Proofs.Sources

namespace Stencil

namespace Merging

open Ancestry

variable {look : String → Except Failure Template} {limit : Int}

/-- **A chain that runs into a cycle is refused as circular**, if as many templates may be in
progress as come before a name comes again. -/
theorem Climbs.circular_of_cyclic {l : Template} {chain : List Template} {t : Template}
    {es : List Event} {r : Except Failure (List Template)}
    (h : Climbs look limit [] l.name chain t es r) (cyclic : Cyclic look t)
    (fits : WithinLimit look limit l) (from_leaf : ∃ us, chain.reverse ++ [t] = l :: us)
    (up : (chain.reverse ++ [t]).IsChain (Extends look))
    (distinct : (chain.reverse.map Template.name).Nodup) :
    ∃ names, r = .error (.of (.circular names)) := by
  have spread : ∀ {chain : List Template} {t : Template}, t.name ∉ stack [] chain →
      (chain.reverse.map Template.name).Nodup → ((chain.reverse ++ [t]).map Template.name).Nodup :=
    fun new distinct => by
      rw [List.map_append]
      refine List.nodup_append.mpr ⟨distinct, List.pairwise_singleton _ _, ?_⟩
      rintro a ha b hb rfl
      exact new (List.mem_singleton.mp hb ▸ ha)
  induction h with
  | circular known => exact ⟨_, rfl⟩
  | @tooDeep chain t new full =>
    obtain ⟨us, whole⟩ := from_leaf
    have few := fits us (whole ▸ up) (whole ▸ spread new distinct)
    have length := congrArg List.length whole
    simp only [List.length_append, List.length_reverse, List.length_cons] at length
    simp only [stack, List.nil_append, List.length_map, List.length_reverse] at full
    omega
  | root new _ last =>
    obtain ⟨u, name, next, -⟩ := cyclic.exists_extends
    cases last.symm.trans next
  | lost new _ next missing =>
    obtain ⟨u, name, next', found⟩ := cyclic.exists_extends
    cases next.symm.trans next'
    cases missing.symm.trans found
  | @parent chain t name u es r new _ next found rest ih =>
    have step : Extends look t u := ⟨name, next, found⟩
    obtain ⟨us, whole⟩ := from_leaf
    refine ih (cyclic.above step) ⟨us ++ [u], ?_⟩ ?_ ?_
    · rw [List.reverse_cons, whole]
      rfl
    · rw [List.reverse_cons]
      refine List.isChain_append.mpr ⟨up, List.isChain_singleton u, ?_⟩
      simpa using step
    · rw [List.reverse_cons]
      exact spread new distinct

end Merging

namespace Engine

open Ancestry Merging

variable (e : Engine) {s : Session} {t : Template}

/-- **A template above which there is a cycle is not merged**: it is refused as circular. -/
theorem mergeTemplate_of_cyclic (cyclic : Cyclic (s.answer e.loader) t)
    (fits : WithinLimit (s.answer e.loader) e.limits.nesting t) :
    ∃ names, (e.mergeTemplate t s).1 = .error (.of (.circular names)) := by
  obtain ⟨es, merges⟩ := (e.mergeTemplate_eq_iff t s _).mp rfl
  have refused : ∀ {es r}, Climbs (s.answer e.loader) e.limits.nesting [] t.name [] t es r →
      ∃ names, r = .error (.of (.circular names)) := fun climb =>
    climb.circular_of_cyclic cyclic fits ⟨[], rfl⟩ (List.isChain_singleton t) .nil
  generalize (e.mergeTemplate t s).1 = r at merges
  cases merges with
  | refused climb =>
    obtain ⟨names, same⟩ := refused climb
    cases same
    exact ⟨names, rfl⟩
  | macrosFail climb _ => cases (refused climb).choose_spec
  | expands climb _ _ => cases (refused climb).choose_spec

variable {e} {name : String}

/-- Under a cycle nothing is rendered either, whatever the context is. -/
theorem render_of_cyclic (found : s.answer e.loader name = .ok t)
    (cyclic : Cyclic (s.answer e.loader) t)
    (fits : WithinLimit (s.answer e.loader) e.limits.nesting t) (context : Value) :
    ∃ names, (e.render name context s).1 =
      .error (.error ⟨.circular names, none, some t.name⟩) := by
  have same : (e.load name s).2.answer e.loader = s.answer e.loader :=
    Session.answer_load e.loader name s
  rw [← same] at cyclic fits
  obtain ⟨names, refused⟩ := e.mergeTemplate_of_cyclic cyclic fits
  refine ⟨names, ?_⟩
  rw [render_of_found found, merge_of_found found, refused]
  rfl

end Engine

namespace CommandLine

open Ancestry

/-! ### Steps -/

/-- What stops a request when a template fails. -/
def Stop.ofFailure : Failure → Stop
  | .error e => .complaint (.template e)
  | .fault f => if (reportable f).isSome then .complaint (.value f) else .fault f

theorem Stop.ofFailure_ne_endless (f : Failure) : Stop.ofFailure f ≠ .endless := by
  unfold Stop.ofFailure
  split
  · exact nofun
  · split <;> exact nofun

theorem ofFailure_error {α : Type} (f : Failure) :
    (ofFailure (.error f) : Attempt α) = .error (.ofFailure f) := by
  cases f <;> rfl

/-- A step and what follows it. -/
theorem step_bind {α β : Type} (p : Step α) (f : α → Step β) (s : Session) :
    (p >>= f) s =
      match p s with
      | (.ok a, s') => f a s'
      | (.error stop, s') => (.error stop, s') := by
  have run : (p >>= f) s = (p s >>= fun (r, s') => ExceptT.bindCont f r s' : Id _) := rfl
  rw [run]
  rcases p s with ⟨_ | _, _⟩ <;> rfl

/-- Work that goes on, or that stops the request. -/
theorem work_bind {α β : Type} (w : Work Session α) (f : α → Step β) (s : Session) :
    (work w >>= f) s =
      match w s with
      | (.ok a, s') => f a s'
      | (.error failure, s') => (.error (.ofFailure failure), s') := by
  rw [step_bind, work]
  rcases w s with ⟨failure | a, s'⟩
  · dsimp only
    rw [ofFailure_error]
  · rfl

/-! ### The walk -/

variable {e : Engine} {s : Session} {t : Template} {us : List Template}
  {lost : Option (String × Failure)} {room : Nat}

theorem extendsChain_eq (e : Engine) (room : Nat) (t : Template) :
    extendsChain e room t =
      match t.parent with
      | none => pure []
      | some name =>
        match room with
        | 0 => attempt (.error .endless)
        | room + 1 =>
          work (e.load name) >>= fun parent =>
            extendsChain e room parent >>= fun more => pure (parent :: more) :=
  (extendsChain.eq_def e room t).trans rfl

theorem extendsChain_root (last : t.parent = none) : extendsChain e room t s = (.ok [], s) := by
  rw [extendsChain_eq, last]
  rfl

/-- A load gives what the name leads to. -/
theorem load_eq (e : Engine) (name : String) (s : Session) :
    e.load name s = (s.answer e.loader name, Session.loads e.loader [name] s) :=
  Prod.ext (Session.load_result e.loader name s) rfl

theorem extendsChain_lost {name : String} {f : Failure} (next : t.parent = some name)
    (missing : s.answer e.loader name = .error f) :
    extendsChain e (room + 1) t s = (.error (.ofFailure f), Session.loads e.loader [name] s) := by
  rw [extendsChain_eq, next]
  dsimp only
  rw [work_bind, load_eq, missing]

theorem extendsChain_parent {name : String} {u : Template} (next : t.parent = some name)
    (found : s.answer e.loader name = .ok u) :
    extendsChain e (room + 1) t s =
      match extendsChain e room u (Session.loads e.loader [name] s) with
      | (.ok us, s') => (.ok (u :: us), s')
      | (.error stop, s') => (.error stop, s') := by
  rw [extendsChain_eq, next]
  dsimp only
  rw [work_bind, load_eq, found]
  dsimp only
  rw [step_bind]
  rcases extendsChain e room u _ with ⟨_ | _, _⟩ <;> rfl

/-- What comes of a walk to the end of a chain. -/
def walked (us : List Template) : Option (String × Failure) → Attempt (List Template)
  | none => .ok us
  | some (_, f) => .error (.ofFailure f)

/-- **A chain that ends is walked to its end**, and its names are loaded on the way. -/
theorem extendsChain_of_ascends (h : Ascends (s.answer e.loader) t us lost)
    (enough : us.length + lost.toList.length ≤ room) :
    extendsChain e room t s =
      (walked us lost, Session.loads e.loader ((t :: us).filterMap Template.parent) s) := by
  generalize same : s.answer e.loader = look at h
  induction h generalizing room s with
  | root last =>
    rw [extendsChain_root last, List.filterMap_cons_none last]
    rfl
  | lost next missing =>
    obtain ⟨less, rfl⟩ := Nat.exists_eq_add_one.mpr enough
    rw [extendsChain_lost next (same ▸ missing), List.filterMap_cons_some next]
    rfl
  | @parent t u us name lost next found rest ih =>
    rw [List.length_cons] at enough
    obtain ⟨less, rfl⟩ := Nat.exists_eq_add_one.mpr (show 0 < room by omega)
    have same' : (Session.loads e.loader [name] s).answer e.loader = look :=
      (Session.answer_loads e.loader [name] s).trans same
    rw [extendsChain_parent next (same ▸ found), ih (by omega) same',
      List.filterMap_cons_some next]
    cases lost <;> rfl

/-- **A chain that does not end is walked for ever.** -/
theorem extendsChain_endless (h : ¬∃ us lost, Ascends (s.answer e.loader) t us lost) :
    (extendsChain e room t s).1 = .error .endless := by
  generalize same : s.answer e.loader = look at h
  induction room generalizing s t with
  | zero =>
    cases next : t.parent with
    | none => exact absurd ⟨[], none, .root next⟩ h
    | some name =>
      rw [extendsChain_eq, next]
      rfl
  | succ room ih =>
    cases next : t.parent with
    | none => exact absurd ⟨[], none, .root next⟩ h
    | some name =>
      cases found : look name with
      | error f => exact absurd ⟨[], _, .lost next found⟩ h
      | ok u =>
        have further : ¬∃ us lost, Ascends look u us lost := fun ⟨us, lost, rest⟩ =>
          h ⟨u :: us, lost, .parent next found rest⟩
        have stopped := ih ((Session.answer_loads e.loader [name] s).trans same) further
        rw [extendsChain_parent next (same ▸ found)]
        generalize extendsChain e room u (Session.loads e.loader [name] s) = r at stopped
        obtain ⟨_, s'⟩ := r
        cases stopped
        rfl

/-! ### What else there is in a request -/

/-- An attempt that is not given up as endless. -/
def Ends {α : Type} (a : Attempt α) : Prop :=
  a ≠ .error .endless

section

variable {α β : Type}

theorem ends_ok (a : α) : Ends (.ok a) :=
  nofun

theorem ends_complain (c : Complaint) : Ends (complain c : Attempt α) :=
  nofun

theorem ends_ofFault (f : Fault) : Ends (ofFault f : Attempt α) := by
  unfold ofFault
  split <;> exact nofun

theorem ends_ofFailure (r : Except Failure α) : Ends (ofFailure r) := by
  rcases r with (_ | f) | a
  · exact ends_complain _
  · exact ends_ofFault f
  · exact ends_ok a

theorem ends_ofConfig (r : Except Config.Refusal α) : Ends (ofConfig r) := by
  rcases r with (_ | f) | a
  · exact ends_complain _
  · exact ends_ofFault f
  · exact ends_ok a

theorem ends_bind {a : Attempt α} {f : α → Attempt β} (h : Ends a) (h' : ∀ x, Ends (f x)) :
    Ends (a >>= f) := by
  rcases a with stop | x
  · exact fun same => h (congrArg Except.error (Except.error.inj same))
  · exact h' x

theorem ends_configOf (t : FileTree) (r : Request) : Ends (configOf t r) := by
  unfold configOf
  split
  · split
    · exact ends_ok _
    · exact ends_bind (ends_ofConfig _) fun _ => ends_ok _
  · exact ends_ok _

theorem ends_contextOf (source : String) : Ends (contextOf source) := by
  unfold contextOf
  split
  · exact ends_ok _
  · split
    · exact ends_ok _
    · exact ends_complain _
    · exact ends_complain _
    · exact ends_ofFault _

theorem ends_readContext (t : FileTree) (input : String) (context : Option String) :
    Ends (readContext t input context) := by
  unfold readContext
  split
  · exact ends_ok _
  · exact ends_ok _
  · exact ends_contextOf _
  · dsimp only
    split
    · exact ends_complain _
    · split
      · split
        · exact ends_contextOf _
        · exact ends_ofFault _
      · exact ends_ofFault _
      · exact ends_complain _

theorem ends_readBinding (spec : String) : Ends (readBinding spec) := by
  unfold readBinding
  split
  · exact ends_complain _
  · dsimp only
    split
    · exact ends_complain _
    · split
      · exact ends_ok _
      · exact ends_ok _
      · exact ends_ofFault _

theorem ends_readBindings (specs : List String) : Ends (readBindings specs) := by
  induction specs with
  | nil => exact ends_ok _
  | cons spec specs ih =>
    exact ends_bind (ends_readBinding spec) fun _ => ends_bind ih fun _ => ends_ok _

/-- Steps one after the other end if each of them does. -/
theorem ends_step_bind {p : Step α} {f : α → Step β} {s : Session} (h : Ends (p s).1)
    (h' : ∀ a s', Ends (f a s').1) : Ends ((p >>= f) s).1 := by
  rw [step_bind]
  generalize p s = r at h
  rcases r with ⟨stop | a, s'⟩
  · exact fun same => h (congrArg Except.error (Except.error.inj same))
  · exact h' a s'

theorem ends_work (w : Work Session α) (s : Session) : Ends (work w s).1 :=
  ends_ofFailure (w s).1

end

/-! ### Requests -/

/-- What a check tells of a template and the templates above it. -/
def Summary.ofChain (name : String) (all : List Template) (chain : List Template) : Summary where
  template := name
  chain := chain.map Template.name
  blocks := sortedSet (all.flatMap fun t => Table.names t.blocks)
  macros := sortedSet (all.flatMap fun t => Table.names t.macros)

theorem check_of_lost {name : String} {f : Failure} (missing : s.answer e.loader name = .error f)
    (n : Nat) : check e n name s = (.error (.ofFailure f), Session.loads e.loader [name] s) := by
  unfold check
  rw [work_bind, load_eq, missing]

/-- A check walks the chain and then merges the template. -/
theorem check_of_found {name : String} (found : s.answer e.loader name = .ok t) (n : Nat) :
    check e n name s =
      match extendsChain e (n + 1) t (Session.loads e.loader [name] s) with
      | (.ok us, s') =>
        match e.merge name s' with
        | (.ok _, s'') => (.ok (.ofChain name (t :: us) us), s'')
        | (.error f, s'') => (.error (.ofFailure f), s'')
      | (.error stop, s') => (.error stop, s') := by
  unfold check
  rw [work_bind, load_eq, found]
  dsimp only
  rw [step_bind]
  rcases extendsChain e (n + 1) t _ with ⟨stop | us, s'⟩
  · rfl
  · dsimp only
    rw [work_bind]
    rcases e.merge name s' with ⟨f | m, s''⟩ <;> rfl

/-- **A check goes on for ever just if the walk does.** -/
theorem check_endless_iff {name : String} (n : Nat) :
    (check e n name s).1 = .error .endless ↔
      ∃ t, s.answer e.loader name = .ok t ∧
        (extendsChain e (n + 1) t (Session.loads e.loader [name] s)).1 = .error .endless := by
  cases found : s.answer e.loader name with
  | error f =>
    rw [check_of_lost found]
    constructor
    · exact fun h => absurd (Except.error.inj h) (Stop.ofFailure_ne_endless f)
    · rintro ⟨t, ⟨⟩, -⟩
  | ok t =>
    rw [check_of_found found]
    generalize walk : extendsChain e (n + 1) t (Session.loads e.loader [name] s) = r
    rcases r with ⟨stop | us, s'⟩
    · constructor
      · exact fun h => ⟨t, rfl, walk ▸ congrArg Except.error (Except.error.inj h)⟩
      · rintro ⟨_, ⟨⟩, h⟩
        rw [walk] at h
        exact congrArg Except.error (Except.error.inj h)
    · constructor
      · intro h
        dsimp only at h
        split at h
        · cases h
        · exact absurd (Except.error.inj h) (Stop.ofFailure_ne_endless _)
      · rintro ⟨_, ⟨⟩, h⟩
        rw [walk] at h
        cases h

/-- A template that extends itself is checked for ever. -/
example :
    (check ⟨.ofTable [], [], [], {}⟩ 1 "a" ⟨[("a", .ofNodes "a" [.inherit "a"])], []⟩).1 =
      .error .endless := by
  rfl

/-- The walk goes on for ever just if there is a cycle, among as many sources as there are turns. -/
theorem extendsChain_endless_iff {trees : List (List Node)} (few : trees.length ≤ room)
    (start : t.tree ∈ trees) (known : ∀ name u, s.answer e.loader name = .ok u → u.tree ∈ trees) :
    (extendsChain e room t s).1 = .error .endless ↔ Cyclic (s.answer e.loader) t := by
  constructor
  · intro endless
    by_contra free
    obtain ⟨us, lost, up, steps⟩ := ascends_of_not_cyclic start known free
    rw [extendsChain_of_ascends up (Nat.le_trans steps few)] at endless
    cases lost with
    | none => cases endless
    | some missing => exact Stop.ofFailure_ne_endless _ (Except.error.inj endless)
  · exact fun cyclic => extendsChain_endless fun ⟨_, _, up⟩ => up.not_cyclic cyclic

/-- In files there are turns enough to tell. -/
theorem walk_endless_iff (c : Config) (w : Surroundings) {files : FileTree} {name : String}
    (found : Session.fetch (c.engine w files).loader name = .ok t) :
    (extendsChain (c.engine w files) (files.files.length + 1) t
        (Session.loads (c.engine w files).loader [name] .fresh)).1 = .error .endless ↔
      Cyclic (Session.fetch (c.engine w files).loader) t := by
  have answers : (Session.loads (c.engine w files).loader [name] .fresh).answer
      (c.engine w files).loader = Session.fetch (c.engine w files).loader :=
    Session.answer_loads _ [name] .fresh
  have few : (c.directories.trees files).length ≤ files.files.length + 1 :=
    Nat.le_succ_of_le (c.directories.length_trees_le files)
  rw [extendsChain_endless_iff few (Directories.tree_mem_of_fetch found), answers]
  intro other u found'
  rw [answers] at found'
  exact Directories.tree_mem_of_fetch found'

/-- A request goes on for ever just if it is a check that does. -/
theorem output_endless_iff (w : Surroundings) (t : FileTree) (input : String) (r : Request) :
    (r.output w t input s).1 = .error .endless ↔
      r.command = .check ∧ ∃ config, configOf t r = .ok config ∧
        (check (config.engine w t) t.files.length r.template s).1 = .error .endless := by
  unfold Request.output
  rw [step_bind, attempt]
  have ended := ends_configOf t r
  cases configured : configOf t r with
  | error stop =>
    rw [configured] at ended
    constructor
    · exact fun h => absurd (congrArg Except.error (Except.error.inj h)) ended
    · rintro ⟨-, _, ⟨⟩, -⟩
  | ok config =>
    dsimp only
    cases r.command with
    | render =>
      have ends : Ends ((attempt (readContext t input r.context) >>= fun context =>
          attempt (readBindings r.bindings) >>= fun bindings =>
            work ((config.engine w t).render r.template
              (.object (Table.putAll context bindings)))) s).1 :=
        ends_step_bind (ends_readContext t input r.context) fun _ _ =>
          ends_step_bind (ends_readBindings r.bindings) fun _ _ => ends_work _ _
      exact ⟨fun h => absurd h ends, nofun⟩
    | check =>
      have told : ((check (config.engine w t) t.files.length r.template >>= fun summary =>
          pure (page summary.value)) s).1 = .error .endless ↔
          (check (config.engine w t) t.files.length r.template s).1 = .error .endless := by
        rw [step_bind]
        rcases check (config.engine w t) t.files.length r.template s with ⟨stop | summary, s'⟩
        · exact ⟨fun h => congrArg Except.error (Except.error.inj h),
            fun h => congrArg Except.error (Except.error.inj h)⟩
        · exact ⟨nofun, nofun⟩
      refine told.trans ⟨fun h => ⟨rfl, config, rfl, h⟩, ?_⟩
      rintro ⟨-, _, ⟨⟩, h⟩
      exact h
    | tokens =>
      have ends : Ends ((source (config.engine w t) r.template >>= fun text =>
          attempt (ofFailure (tokenize text)) >>= fun tokens =>
            pure (page (.list (tokens.map tokenValue)))) s).1 :=
        ends_step_bind (ends_ofFailure _) fun _ _ =>
          ends_step_bind (ends_ofFailure _) fun _ _ => ends_ok _
      exact ⟨fun h => absurd h ends, nofun⟩

/-- A request is endless if its output is. -/
theorem run_endless_iff (w : Surroundings) (t : FileTree) (input : String) (r : Request) :
    (r.run w t input).1 = .endless ↔ (r.output w t input .fresh).1 = .error .endless := by
  unfold Request.run
  rcases r.output w t input .fresh with ⟨(c | f | _) | text, s⟩
  · exact ⟨nofun, nofun⟩
  · exact ⟨nofun, nofun⟩
  · exact ⟨fun _ => rfl, fun _ => rfl⟩
  · exact ⟨nofun, nofun⟩

/-- **A request goes on for ever just if it checks a template above which there is a cycle.** In any
other case the walk ends after no more steps than there are files. Such a cycle is no reason to go
on: if no more templates come before a name comes again than may be in progress, merging the
template fails, and so does rendering it, as the chain is circular. -/
theorem endless_iff (w : Surroundings) (t : FileTree) (input : String) (r : Request) :
    ((r.run w t input).1 = .endless ↔
      r.command = .check ∧ ∃ config u, configOf t r = .ok config ∧
        Session.fetch (config.engine w t).loader r.template = .ok u ∧
          Cyclic (Session.fetch (config.engine w t).loader) u) ∧
    ∀ config u, configOf t r = .ok config →
      Session.fetch (config.engine w t).loader r.template = .ok u →
        (¬Cyclic (Session.fetch (config.engine w t).loader) u →
          ∃ us lost, Ascends (Session.fetch (config.engine w t).loader) u us lost ∧
            us.length + lost.toList.length ≤ t.files.length) ∧
        (Cyclic (Session.fetch (config.engine w t).loader) u →
          WithinLimit (Session.fetch (config.engine w t).loader) config.limits.nesting u →
            ∀ context, ∃ names, ((config.engine w t).render r.template context .fresh).1 =
              .error (.error ⟨.circular names, none, some u.name⟩)) := by
  have answers : ∀ loader, Session.fresh.answer loader = Session.fetch loader := fun _ => rfl
  constructor
  · rw [run_endless_iff, output_endless_iff]
    refine and_congr_right fun _ => exists_congr fun config => ?_
    rw [check_endless_iff, answers]
    constructor
    · rintro ⟨configured, u, found, endless⟩
      exact ⟨u, configured, found, (walk_endless_iff config w found).mp endless⟩
    · rintro ⟨u, configured, found, cyclic⟩
      exact ⟨configured, u, found, (walk_endless_iff config w found).mpr cyclic⟩
  · intro config u configured found
    refine ⟨fun free => ?_, fun cyclic fits context => ?_⟩
    · obtain ⟨us, lost, up, steps⟩ := ascends_of_not_cyclic
        (Directories.tree_mem_of_fetch found)
        (fun name v found' => Directories.tree_mem_of_fetch found') free
      exact ⟨us, lost, up, Nat.le_trans steps (config.directories.length_trees_le t)⟩
    · exact Engine.render_of_cyclic (s := .fresh) found cyclic fits context

end CommandLine

end Stencil
