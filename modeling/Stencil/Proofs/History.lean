/-
# What an engine remembers

A host is an engine over a table of sources, in the middle of its work. It goes
through steps: sources come and go, functions and filters are registered, and
templates are loaded, merged and rendered. What it keeps from step to step are
templates, and the claim is that nobody can tell. Each step ends as it does for
a host that starts now, with the functions and filters registered so far and
with the present sources, where only those names lead elsewhere that have been
loaded: they lead to the sources that they were first loaded from.

The log of a host lists what its loader was asked for, with the sources that
there were. A session is faithful to a log if it keeps what the first good
source for each name compiles to, and if the loader was not asked for a name
again after that. All loads preserve this, whatever the table is at the time.

Key definitions: `Host`, `Host.Step`, `Host.step`, `Host.log`, `firstSource`,
`overridden`, `Session.Faithful`.
Key theorems: `Session.Faithful.loads`, `Host.faithful_after`,
`Host.step_twin`, `Host.queries_twin`, `Host.transparent`.
-/
import Stencil.Proofs.Twins

namespace Stencil

/-! ### Logs -/

/-- A request to a loader, with the source that it had for the name. -/
structure Query where
  name : String
  source : Option String
  deriving DecidableEq, Repr

/-- The source, if it compiles. -/
def Query.success? (q : Query) : Option String :=
  q.source.filter fun source => (Template.compile q.name source).isOk

/-- The source that a name was first loaded from with success. -/
def firstSource (log : List Query) (name : String) : Option String :=
  log.findSome? fun q => if q.name = name then q.success? else none

/-- Sources, where each name that was loaded with success has the source that it was first loaded
from. -/
def overridden (sources : Table String) : List Query → Table String
  | [] => sources
  | q :: log =>
    match q.success? with
    | some source => Table.put q.name source (overridden sources log)
    | none => overridden sources log

section

variable {log : List Query} {name source : String}

theorem compiles_of_success? {q : Query} (h : q.success? = some source) :
    ∃ t, Template.compile q.name source = .ok t := by
  obtain ⟨-, ok⟩ := Option.filter_eq_some_iff.mp h
  cases hc : Template.compile q.name source with
  | ok t => exact ⟨t, rfl⟩
  | error f =>
    rw [hc] at ok
    cases ok

theorem compiles_of_firstSource (h : firstSource log name = some source) :
    ∃ t, Template.compile name source = .ok t := by
  obtain ⟨q, -, hq⟩ := List.exists_of_findSome?_eq_some h
  by_cases hn : q.name = name
  · rw [if_pos hn] at hq
    exact hn ▸ compiles_of_success? hq
  · rw [if_neg hn] at hq
    cases hq

theorem find?_overridden (sources : Table String) (name : String) : ∀ log : List Query,
    Table.find? name (overridden sources log) =
      (firstSource log name).or (Table.find? name sources)
  | [] => rfl
  | q :: log => by
    have ih := find?_overridden sources name log
    unfold firstSource at ih ⊢
    rw [List.findSome?_cons, overridden]
    cases hs : q.success? with
    | none => by_cases hn : q.name = name <;> simp [hn, ih]
    | some source =>
      by_cases hn : q.name = name
      · simp [hn]
      · simp only [if_neg hn]
        rw [Table.find?_put_ne (Ne.symm hn), ih]

theorem firstSource_append (log' : List Query) :
    firstSource (log ++ log') name = (firstSource log name).or (firstSource log' name) :=
  List.findSome?_append

theorem firstSource_singleton (q : Query) :
    firstSource [q] name = if q.name = name then q.success? else none := by
  unfold firstSource
  rw [List.findSome?_singleton]

/-- No query for a name had success if the name was not loaded. -/
theorem success?_of_firstSource (h : firstSource log name = none) {q : Query} (hq : q ∈ log)
    (hn : q.name = name) : q.success? = none := by
  have none := List.findSome?_eq_none_iff.mp h q hq
  rwa [if_pos hn] at none

end

/-! ### Sessions -/

namespace Session

/-- The requests that loads make to the loader of a table. -/
def queries (sources : Table String) (names : List String) (s : Session) : List Query :=
  (fetches (.ofTable sources) names s).map fun name => ⟨name, Table.find? name sources⟩

/-- A session keeps what the first good sources of a log compile to, and no name was asked for again
after that. -/
structure Faithful (log : List Query) (s : Session) : Prop where
  cache : ∀ name, Table.find? name s.cache =
    (firstSource log name).bind fun source => (Template.compile name source).toOption
  once : log.Pairwise fun q q' => q.success?.isSome → q'.name ≠ q.name

theorem fetch_ofTable (sources : Table String) (name : String) :
    fetch (.ofTable sources) name =
      match Table.find? name sources with
      | some source => Template.compile name source
      | none => .error (.error ⟨.templateNotFound name, none, some name⟩) := by
  unfold fetch Loader.ofTable
  cases Table.find? name sources <;> rfl

namespace Faithful

variable {log : List Query} {s : Session}

theorem fresh : Faithful [] .fresh where
  cache _ := rfl
  once := .nil

theorem keeps_eq (h : Faithful log s) (name : String) :
    s.keeps name = (firstSource log name).isSome := by
  unfold keeps Table.has
  rw [h.cache name]
  cases hf : firstSource log name with
  | none => rfl
  | some source =>
    obtain ⟨t, ht⟩ := compiles_of_firstSource hf
    simp [ht, Except.toOption]

/-- **Names lead to the same as in a fresh session with the first sources.** -/
theorem answer (h : Faithful log s) (sources : Table String) :
    s.answer (.ofTable sources) = Session.fresh.answer (.ofTable (overridden sources log)) := by
  funext name
  have fresh : Session.fresh.answer (.ofTable (overridden sources log)) name =
      fetch (.ofTable (overridden sources log)) name := answer_of_find_none rfl
  rw [fresh, fetch_ofTable, find?_overridden]
  have kept := h.cache name
  cases hf : firstSource log name with
  | none =>
    rw [hf] at kept
    rw [answer_of_find_none kept, fetch_ofTable]
    rfl
  | some source =>
    obtain ⟨t, ht⟩ := compiles_of_firstSource hf
    rw [hf] at kept
    simp only [Option.bind_some, ht, Except.toOption] at kept
    rw [answer_of_find kept]
    exact ht.symm

theorem load (h : Faithful log s) (sources : Table String) (name : String) :
    Faithful (log ++ s.queries sources [name]) (load (.ofTable sources) name s).2 := by
  by_cases hk : s.keeps name = true
  · have none : s.queries sources [name] = [] := by simp [queries, fetches, hk]
    rw [none, List.append_nil, load_of_keeps hk]
    exact h
  have one : s.queries sources [name] = [⟨name, Table.find? name sources⟩] := by
    simp [queries, fetches, hk]
  have new : firstSource log name = none := by
    rw [h.keeps_eq] at hk
    simpa using hk
  rw [one]
  refine ⟨fun other => ?_, List.pairwise_append.mpr ⟨h.once, List.pairwise_singleton _ _, ?_⟩⟩
  · rw [load_of_find_none (find?_of_not_keeps hk), firstSource_append, firstSource_singleton,
      fetch_ofTable]
    by_cases ho : other = name
    · subst ho
      rw [new, if_pos rfl]
      cases hs : Table.find? other sources with
      | none =>
        have missing := h.cache other
        rw [new] at missing
        exact missing
      | some source =>
        cases hc : Template.compile other source with
        | error f =>
          have missing := h.cache other
          rw [new] at missing
          simp only [hc, Query.success?, Option.filter, Except.isOk, Except.toBool]
          exact missing
        | ok t => simp [hc, Query.success?, Option.filter, Except.isOk, Except.toBool, Except.toOption]
    · rw [if_neg (Ne.symm ho), Option.or_none, ← h.cache other]
      cases Table.find? name sources with
      | none => rfl
      | some source =>
        cases hc : Template.compile name source with
        | error f => simp only [hc]
        | ok t => simp only [hc, Table.find?_put_ne ho]
  · intro q hq q' hq' success same
    cases List.mem_singleton.mp hq'
    rw [success?_of_firstSource new hq same.symm] at success
    cases success

/-- **Loads keep a session faithful**, whatever the sources are by now. -/
theorem loads (sources : Table String) (names : List String) : ∀ {log : List Query} {s : Session},
    Faithful log s → Faithful (log ++ s.queries sources names) (loads (.ofTable sources) names s) := by
  induction names with
  | nil =>
    intro log s h
    rw [show s.queries sources [] = [] from rfl, List.append_nil]
    exact h
  | cons name names ih =>
    intro log s h
    have split : s.queries sources (name :: names) = s.queries sources [name] ++
        (Session.load (.ofTable sources) name s).2.queries sources names := by
      unfold queries
      rw [← List.map_append]
      congr 1
      by_cases hk : s.keeps name = true <;> simp [fetches, hk]
    rw [split, ← List.append_assoc]
    exact ih (h.load sources name)

end Faithful

end Session

/-! ### Hosts -/

/-- An engine over a table of sources, with the session that it is in. -/
structure Host where
  sources : Table String
  functions : Registry
  filters : Table Filter
  limits : Limits
  session : Session

namespace Host

/-- A host that has not loaded anything. -/
def start (sources : Table String) (functions : Registry) (filters : Table Filter)
    (limits : Limits) : Host :=
  ⟨sources, functions, filters, limits, .fresh⟩

def engine (h : Host) : Engine :=
  ⟨.ofTable h.sources, h.functions, h.filters, h.limits⟩

/-- The host with other sources and in another session. -/
def elsewhere (h : Host) (sources : Table String) (session : Session) : Host :=
  ⟨sources, h.functions, h.filters, h.limits, session⟩

/-- What a host is asked to do. -/
inductive Step where
  | put (name source : String)
  | drop (name : String)
  | registerFilter (name : String) (filter : Filter)
  | registerFunction (name : String) (function : Function)
  | load (name : String)
  | merge (name : String)
  | render (name : String) (context : Value)
  | renderString (source name : String) (context : Value)

namespace Step

def isRegistration : Step → Bool
  | registerFilter _ _ => true
  | registerFunction _ _ => true
  | _ => false

/-- The template that a step asks for by name. -/
def target? : Step → Option String
  | load name => some name
  | merge name => some name
  | render name _ => some name
  | _ => none

end Step

/-- What a step ends with. -/
inductive Answer where
  | done
  | refused (bounds : Registry.BadBounds)
  | template (r : Except Failure Template)
  | merged (r : Except Failure Merged)
  | text (r : Except Failure String)

/-- Work in the session of a host. -/
def work {α : Type} (h : Host) (answer : Except Failure α → Answer) (w : Work Session α) :
    Answer × Host :=
  (answer (w h.session).1, { h with session := (w h.session).2 })

/-- What a step ends with, and the host after it. -/
def step (h : Host) : Step → Answer × Host
  | .put name source => (.done, { h with sources := Table.put name source h.sources })
  | .drop name => (.done, { h with sources := Table.erase name h.sources })
  | .registerFilter name filter => (.done, { h with filters := Table.put name filter h.filters })
  | .registerFunction name function =>
    match h.functions.register name function with
    | .ok functions => (.done, { h with functions })
    | .error bounds => (.refused bounds, h)
  | .load name => h.work .template (h.engine.load name)
  | .merge name => h.work .merged (h.engine.merge name)
  | .render name context => h.work .text (h.engine.render name context)
  | .renderString source name context => h.work .text (h.engine.renderString source name context)

/-- The host after some steps. -/
def after (h : Host) : List Step → Host
  | [] => h
  | q :: qs => (h.step q).2.after qs

/-- What the loader is asked for in a step, with the sources that there are. -/
def queries (h : Host) (q : Step) : List Query :=
  let asked := (h.step q).2.session.asked
  (asked.take (asked.length - h.session.asked.length)).reverse.map fun name =>
    ⟨name, Table.find? name h.sources⟩

/-- What the loader is asked for in some steps. -/
def log (h : Host) : List Step → List Query
  | [] => []
  | q :: qs => h.queries q ++ (h.step q).2.log qs

/-- A host that starts with the functions and filters that some steps register, and with the
sources after them, where names that were loaded lead to the sources that they were first loaded
from. -/
def twin (h : Host) (qs : List Step) : Host :=
  { h.after (qs.filter Step.isRegistration) with
    sources := overridden (h.after qs).sources (h.log qs) }

variable {h : Host}

theorem work_alike {α : Type} {sources : Table String} {session : Session} {w w' : Work Session α}
    (answer : Except Failure α → Answer) (alike : Alike (.ofTable h.sources) (.ofTable sources) w w')
    (same : h.session.answer (.ofTable h.sources) = session.answer (.ofTable sources)) :
    ∃ names, (h.work answer w).2.session = Session.loads (.ofTable h.sources) names h.session ∧
      ((h.elsewhere sources session).work answer w').2.session =
        Session.loads (.ofTable sources) names session ∧
      (h.work answer w).1 = ((h.elsewhere sources session).work answer w').1 := by
  obtain ⟨r, names, run, run'⟩ := alike h.session session same
  refine ⟨names, ?_, ?_, ?_⟩
  · simp only [work, run]
  · simp only [work, elsewhere, run']
  · simp only [work, elsewhere, run, run']

/-- **A step ends alike and requests the same templates** in hosts with the same functions, filters
and limits in which names lead to the same. -/
theorem step_twin {sources : Table String} {session : Session}
    (same : h.session.answer (.ofTable h.sources) = session.answer (.ofTable sources)) (q : Step) :
    ∃ names, (h.step q).2.session = Session.loads (.ofTable h.sources) names h.session ∧
      ((h.elsewhere sources session).step q).2.session =
        Session.loads (.ofTable sources) names session ∧
      (h.step q).1 = ((h.elsewhere sources session).step q).1 := by
  cases q with
  | put _ _ => exact ⟨[], rfl, rfl, rfl⟩
  | drop _ => exact ⟨[], rfl, rfl, rfl⟩
  | registerFilter _ _ => exact ⟨[], rfl, rfl, rfl⟩
  | registerFunction name function =>
    simp only [step, elsewhere]
    cases h.functions.register name function with
    | ok _ => exact ⟨[], rfl, rfl, rfl⟩
    | error _ => exact ⟨[], rfl, rfl, rfl⟩
  | load name => exact work_alike _ (h.engine.load_alike _ name) same
  | merge name => exact work_alike _ (h.engine.merge_alike _ name) same
  | render name context => exact work_alike _ (h.engine.render_alike _ name context) same
  | renderString source name context =>
    exact work_alike _ (h.engine.renderString_alike _ source name context) same

/-- What a step does to the session are loads. -/
theorem step_loads (h : Host) (q : Step) :
    ∃ names, (h.step q).2.session = Session.loads (.ofTable h.sources) names h.session := by
  have same : h.session.answer (.ofTable h.sources) = h.session.answer (.ofTable h.sources) := rfl
  obtain ⟨names, loads, -⟩ := step_twin same q
  exact ⟨names, loads⟩

theorem queries_of_loads {q : Step} {names : List String}
    (loads : (h.step q).2.session = Session.loads (.ofTable h.sources) names h.session) :
    h.queries q = h.session.queries h.sources names := by
  simp [queries, loads, Session.asked_loads, Session.queries]

/-- The session of a host stays faithful to its log. -/
theorem faithful_after : ∀ (qs : List Step) {log₀ : List Query} {h : Host},
    h.session.Faithful log₀ → (h.after qs).session.Faithful (log₀ ++ h.log qs)
  | [], log₀, h, faithful => by
    rw [log, List.append_nil]
    exact faithful
  | q :: qs, log₀, h, faithful => by
    obtain ⟨names, loads⟩ := h.step_loads q
    have next : (h.step q).2.session.Faithful (log₀ ++ h.queries q) := by
      rw [queries_of_loads loads, loads]
      exact faithful.loads h.sources names
    rw [log, ← List.append_assoc]
    exact faithful_after qs next

/-- A registration has nothing to do with sources and sessions. -/
theorem step_registration {q : Step} (hq : q.isRegistration = true) {sources : Table String}
    {session : Session} :
    ((h.elsewhere sources session).step q).2 = (h.step q).2.elsewhere sources session := by
  cases q with
  | registerFilter _ _ => rfl
  | registerFunction name function =>
    simp only [step, elsewhere]
    cases h.functions.register name function <;> rfl
  | _ => cases hq

/-- Other steps change nothing but sources and the session. -/
theorem elsewhere_step {q : Step} (hq : ¬q.isRegistration = true) {sources : Table String}
    {session : Session} : (h.step q).2.elsewhere sources session = h.elsewhere sources session := by
  cases q with
  | registerFilter _ _ => exact absurd rfl hq
  | registerFunction _ _ => exact absurd rfl hq
  | _ => rfl

/-- Functions, filters and limits after some steps are those after the registrations among them,
and these do not touch the session. -/
theorem after_registrations : ∀ (qs : List Step) (h : Host) (sources : Table String)
    (session : Session),
    (h.elsewhere sources session).after (qs.filter Step.isRegistration) =
      (h.after qs).elsewhere sources session
  | [], _, _, _ => rfl
  | q :: qs, h, sources, session => by
    have ih := after_registrations qs (h.step q).2 sources session
    by_cases hq : q.isRegistration = true
    · have same : ((h.elsewhere sources session).step q).2 =
          (h.step q).2.elsewhere sources session := step_registration hq
      rw [List.filter_cons_of_pos hq, after, after, same]
      exact ih
    · have same : (h.step q).2.elsewhere sources session = h.elsewhere sources session :=
        elsewhere_step hq
      rw [List.filter_cons_of_neg hq, after, ← same]
      exact ih

theorem twin_eq (h : Host) (fresh : h.session = .fresh) (qs : List Step) :
    h.twin qs = (h.after qs).elsewhere (overridden (h.after qs).sources (h.log qs)) .fresh := by
  have same := after_registrations qs h h.sources h.session
  have here : h.elsewhere h.sources h.session = h := rfl
  rw [here] at same
  rw [twin, same, fresh]
  rfl

/-- Work that begins with a template requests that template first. -/
theorem work_bind {α : Type} (answer : Except Failure α → Answer) (name : String)
    {f : Template → Work Session α}
    (hf : ∀ t, Alike (.ofTable h.sources) (.ofTable h.sources) (f t) (f t)) :
    ∃ names, (h.work answer (Work.bind (h.engine.load name) f)).2.session =
      Session.loads (.ofTable h.sources) (name :: names) h.session := by
  rcases run : h.engine.load name h.session with ⟨e | t, s⟩
  · refine ⟨[], ?_⟩
    have stops : Work.bind (h.engine.load name) f h.session = (.error e, s) := Work.bind_error run
    simp only [work, stops]
    exact (congrArg Prod.snd run).symm
  · obtain ⟨r, names, more, -⟩ := hf t s s rfl
    refine ⟨names, ?_⟩
    have both : Work.bind (h.engine.load name) f h.session = f t s := Work.bind_ok run
    simp only [work, both, more]
    exact congrArg (Session.loads _ names) (congrArg Prod.snd run).symm

theorem step_target {q : Step} {name : String} (target : q.target? = some name) :
    ∃ names, (h.step q).2.session =
      Session.loads (.ofTable h.sources) (name :: names) h.session := by
  cases q with
  | load _ =>
    cases target
    exact ⟨[], rfl⟩
  | merge _ =>
    cases target
    exact work_bind _ name fun t => h.engine.mergeTemplate_alike _ t
  | render _ context =>
    cases target
    exact work_bind _ name fun t => h.engine.renderTemplate_alike _ t context
  | _ => cases target

section

variable {log : List Query}

/-- The loader of a host is asked for what that of a fresh host with the first sources is, less the
names that were loaded with success. -/
theorem queries_twin (faithful : h.session.Faithful log) (q : Step) :
    h.queries q = ((h.elsewhere (overridden h.sources log) .fresh).queries q).filter
      fun x => (firstSource log x.name).isNone := by
  have same := faithful.answer h.sources
  obtain ⟨names, loads, loads', -⟩ := h.step_twin same q
  have more (name : String) :
      h.session.keeps name = ((firstSource log name).isSome || Session.fresh.keeps name) := by
    rw [faithful.keeps_eq name]
    exact (Bool.or_false _).symm
  have fewer := Session.fetches_eq_filter names same
    (fun name kept => (faithful.keeps_eq name).trans kept) more
  have pred : ((fun x : Query => (firstSource log x.name).isNone) ∘ fun name =>
      (⟨name, Table.find? name (overridden h.sources log)⟩ : Query)) =
      fun name => !(firstSource log name).isSome := by
    funext name
    exact (Option.not_isSome _).symm
  rw [queries_of_loads loads, queries_of_loads loads']
  simp only [Session.queries, elsewhere]
  rw [fewer, List.filter_map, pred]
  refine List.map_congr_left fun name hn => ?_
  have new : firstSource log name = none := by simpa using (List.mem_filter.mp hn).2
  rw [find?_overridden, new, Option.none_or]

/-- No name is asked for again after it was loaded with success. -/
theorem once_queries (faithful : h.session.Faithful log) (q : Step) :
    (log ++ h.queries q).Pairwise fun x y => x.success?.isSome → y.name ≠ x.name := by
  obtain ⟨names, loads⟩ := h.step_loads q
  rw [queries_of_loads loads]
  exact (faithful.loads h.sources names).once

/-- A name that was not loaded with success is asked for when it is requested. -/
theorem head?_queries (faithful : h.session.Faithful log) {q : Step} {name : String}
    (target : q.target? = some name) (new : firstSource log name = none) :
    (h.queries q).head? = some ⟨name, Table.find? name h.sources⟩ := by
  obtain ⟨names, loads⟩ := h.step_target target
  have missing : ¬h.session.keeps name = true := by
    rw [faithful.keeps_eq name, new]
    exact Bool.false_ne_true
  rw [queries_of_loads loads, Session.queries, Session.fetches, if_neg missing]
  rfl

end

/-- **Nobody can tell what an engine remembers.** Whatever steps a host has gone through, with
sources, functions and filters of whatever kind: the next step ends as it does for a twin that starts
now, and its loader is asked for what that of the twin is, less the names that were loaded with
success. No name is asked for again after it was loaded with success, and a name that was not is
asked for when it is requested. What is kept are the templates that were loaded by name, so no source
that is rendered as it stands is among them. -/
theorem transparent (sources : Table String) (functions : Registry) (filters : Table Filter)
    (limits : Limits) (history : List Step) (q : Step) :
    let first := start sources functions filters limits
    let h := first.after history
    let log := first.log history
    (h.step q).1 = ((first.twin history).step q).1 ∧
    h.queries q =
      ((first.twin history).queries q).filter (fun x => (firstSource log x.name).isNone) ∧
    (log ++ h.queries q).Pairwise (fun x y => x.success?.isSome → y.name ≠ x.name) ∧
    (∀ name, q.target? = some name → firstSource log name = none →
      (h.queries q).head? = some ⟨name, Table.find? name h.sources⟩) ∧
    ∀ name, Table.find? name h.session.cache =
      (firstSource log name).bind fun source => (Template.compile name source).toOption := by
  intro first h log
  have faithful : h.session.Faithful ([] ++ log) := faithful_after history .fresh
  rw [List.nil_append] at faithful
  obtain ⟨-, -, -, ends⟩ := h.step_twin (faithful.answer h.sources) q
  rw [twin_eq first rfl history]
  exact ⟨ends, queries_twin faithful q, once_queries faithful q,
    fun _ target new => head?_queries faithful target new, faithful.cache⟩

end Host

end Stencil
