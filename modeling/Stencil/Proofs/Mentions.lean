/-
# Output depends on the variables that a template mentions

A path starts from a variable, and the rest of it leads on inside of the value.
So a template mentions a variable for each path in an expression and for each
condition, at whatever level it stands; the body of a macro that it defines does
not count, because a macro sees its parameters only.

Two contexts that hold the same under all these variables cannot be told apart.
A loop makes new contexts out of all that its frame holds, and these hold the
same under the variables again.

Key definitions: `Frame.first`, `Expr.mentions`, `Node.mentions`, `mentionsAll`,
`Table.AgreeOn`.
Key theorems: `Renderer.evaluate_of_agree`, `Renderer.renderNodes_of_agree`,
`Renderer.render_of_agree`.
-/
import Mathlib.Data.List.Basic
import Stencil.Renderer

namespace Stencil

/-- The variable that a path starts from. -/
def Frame.first (path : String) : String :=
  (Frame.segments path).headD ""

mutual

/-- The variables that the paths in an expression start from. -/
def Expr.mentions : Expr → List String
  | .literal _ => []
  | .path p => [Frame.first p]
  | .call _ arguments => Expr.mentionsAll arguments
  | .filtered e _ => e.mentions

def Expr.mentionsAll : List Expr → List String
  | [] => []
  | e :: es => e.mentions ++ mentionsAll es

end

mutual

/-- The variables that the paths in a node start from, those in the definition of a macro left
out. -/
def Node.mentions : Node → List String
  | .output e => e.mentions
  | .loop _ source _ body => source.mentions ++ mentionsAll body
  | .choice c body rest => Frame.first c.path :: mentionsAll body ++ rest.mentions
  | .assign _ e => e.mentions
  | .block _ body => mentionsAll body
  | _ => []

def Alternative.mentions : Alternative → List String
  | .choice c body rest => Frame.first c.path :: mentionsAll body ++ rest.mentions
  | .otherwise body => mentionsAll body

/-- The variables that the paths in nodes start from. -/
def mentionsAll : List Node → List String
  | [] => []
  | n :: ns => n.mentions ++ mentionsAll ns

end

/-! ### Tables that agree

What is bound in both tables keeps them in agreement, and so do the tables that
a loop makes for its items. -/

/-- Two tables hold the same under some names, or nothing in both. -/
def Table.AgreeOn {α : Type} (names : List String) (t u : Table α) : Prop :=
  ∀ name ∈ names, Table.find? name t = Table.find? name u

namespace Table.AgreeOn

variable {α : Type} {names others : List String} {t u : Table α}

theorem left (h : AgreeOn (names ++ others) t u) : AgreeOn names t u :=
  fun name member => h name (List.mem_append_left _ member)

theorem right (h : AgreeOn (names ++ others) t u) : AgreeOn others t u :=
  fun name member => h name (List.mem_append_right _ member)

theorem put (h : AgreeOn names t u) (other : String) (a : α) :
    AgreeOn names (Table.put other a t) (Table.put other a u) := by
  intro name member
  by_cases same : name = other
  · subst same
    simp
  · rw [find?_put_ne same, find?_put_ne same]
    exact h name member

theorem putAll : ∀ (pairs : List (String × α)) {t u : Table α}, AgreeOn names t u →
    AgreeOn names (Table.putAll t pairs) (Table.putAll u pairs)
  | [], _, _, h => h
  | p :: pairs, _, _, h => putAll pairs (h.put p.1 p.2)

end Table.AgreeOn

open Table (AgreeOn)

variable {c c' : Table Value}

/-- A lookup reads nothing of the context but the variable that the path starts from. -/
theorem Frame.lookup_of_agree {path : String}
    (same : Table.find? (Frame.first path) c = Table.find? (Frame.first path) c')
    (locals : Table Value) (macros : Table Macro) :
    Frame.lookup ⟨.object c, locals, macros⟩ path =
      Frame.lookup ⟨.object c', locals, macros⟩ path := by
  have bound : Frame.binding ⟨.object c, locals, macros⟩ path (Frame.first path) =
      Frame.binding ⟨.object c', locals, macros⟩ path (Frame.first path) := by
    simp only [Frame.binding, same]
  unfold Frame.first at bound
  unfold Frame.lookup
  rcases h : Frame.segments path with _ | ⟨name, rest⟩
  · rw [h] at bound
    exact bound
  · rw [h, List.headD_cons] at bound
    dsimp only
    rw [bound]

theorem Frame.test_of_agree {condition : Condition}
    (same : Table.find? (Frame.first condition.path) c =
      Table.find? (Frame.first condition.path) c')
    (locals : Table Value) (macros : Table Macro) :
    Frame.test ⟨.object c, locals, macros⟩ condition =
      Frame.test ⟨.object c', locals, macros⟩ condition := by
  unfold Frame.test
  rw [Frame.lookup_of_agree same]

/-- All that a frame holds agrees again, whatever the locals are. -/
theorem Frame.visible_of_agree {names : List String} (agree : AgreeOn names c c')
    (locals : Table Value) (macros : Table Macro) :
    AgreeOn names (Frame.visible ⟨.object c, locals, macros⟩)
      (Frame.visible ⟨.object c', locals, macros⟩) :=
  agree.putAll locals

namespace Renderer

variable {r : Renderer} {run : Runner} {macros : Table Macro}

mutual

/-- **The value of an expression depends on the variables that it mentions.** -/
theorem evaluate_of_agree (locals : Table Value) : ∀ e : Expr, AgreeOn e.mentions c c' →
    evaluate r run ⟨.object c, locals, macros⟩ e = evaluate r run ⟨.object c', locals, macros⟩ e
  | .literal _, _ => rfl
  | .path _, agree => Frame.lookup_of_agree (agree _ List.mem_cons_self) locals macros
  | .filtered e _, agree => by
    have inner := evaluate_of_agree locals e agree
    unfold evaluate
    rw [inner]
  | .call _ arguments, agree => by
    have values := evaluateAll_of_agree locals arguments agree
    unfold evaluate
    cases run <;> simp only [values]

theorem evaluateAll_of_agree (locals : Table Value) :
    ∀ es : List Expr, AgreeOn (Expr.mentionsAll es) c c' →
    evaluateAll r run ⟨.object c, locals, macros⟩ es =
      evaluateAll r run ⟨.object c', locals, macros⟩ es
  | [], _ => rfl
  | e :: es, agree => by
    have first := evaluate_of_agree locals e agree.left
    have others := evaluateAll_of_agree locals es agree.right
    unfold evaluateAll
    rw [first, others]

end

theorem loopItems_of_agree {source : Expr} (agree : AgreeOn source.mentions c c')
    (locals : Table Value) (filter : Option FilterSpec) :
    loopItems r run ⟨.object c, locals, macros⟩ source filter =
      loopItems r run ⟨.object c', locals, macros⟩ source filter := by
  unfold loopItems
  rw [evaluate_of_agree locals source agree]

/-- Items are rendered alike if the body is in all contexts that agree as the outer ones do. -/
theorem renderItems_of_agree {names : List String} (child : Value → Except Failure (List String))
    (inner : ∀ {d d' : Table Value}, AgreeOn names d d' → child (.object d) = child (.object d'))
    {outer outer' : Table Value} (agree : AgreeOn names outer outer') (item : String)
    (items : List Value) :
    renderItems child item outer items = renderItems child item outer' items := by
  have each : (fun x : Value × Nat => child (.object
        (Table.put "loop" (loopObject x.2 items.length) (Table.put item x.1 outer)))) =
      fun x => child (.object
        (Table.put "loop" (loopObject x.2 items.length) (Table.put item x.1 outer'))) := by
    funext x
    exact inner ((agree.put item x.1).put "loop" _)
  show (items.zipIdx.mapM fun x : Value × Nat => child (.object
      (Table.put "loop" (loopObject x.2 items.length) (Table.put item x.1 outer)))) >>= _ = _
  rw [each]
  rfl

mutual

theorem renderNode_of_agree : ∀ (n : Node) {c c' : Table Value} (locals : Table Value),
    AgreeOn n.mentions c c' →
    renderNode r run ⟨.object c, locals, macros⟩ n = renderNode r run ⟨.object c', locals, macros⟩ n
  | .text _, _, _, _, _ => rfl
  | .output e, _, _, locals, agree => by
    unfold renderNode
    rw [evaluate_of_agree locals e agree]
  | .loop item source filter body, _, _, locals, agree => by
    have items : loopItems r run ⟨.object _, locals, macros⟩ source filter =
        loopItems r run ⟨.object _, locals, macros⟩ source filter :=
      loopItems_of_agree agree.left locals filter
    have outer := Frame.visible_of_agree agree.right locals macros
    -- the locals of the body are empty, whatever those of the frame are
    have inner {d d' : Table Value} (h : AgreeOn (mentionsAll body) d d') :
        (renderNodes r run ⟨.object d, [], macros⟩ body).1 =
          (renderNodes r run ⟨.object d', [], macros⟩ body).1 := by
      rw [renderNodes_of_agree body [] h]
    unfold renderNode
    rw [items]
    split
    · rfl
    · rename_i items _
      have texts := renderItems_of_agree
        (fun context => (renderNodes r run ⟨context, [], macros⟩ body).1) inner outer item items
      exact congrArg (·, locals) texts
  | .choice condition body rest, _, _, locals, agree => by
    have asked : Frame.test ⟨.object _, locals, macros⟩ condition = Frame.test _ condition :=
      Frame.test_of_agree (agree _ List.mem_cons_self) locals macros
    have inner := renderNodes_of_agree body locals fun name member =>
      agree.left name (List.mem_cons_of_mem _ member)
    have others := renderAlternative_of_agree rest locals agree.right
    unfold renderNode
    rw [asked, inner, others]
  | .assign _ e, _, _, locals, agree => by
    unfold renderNode
    rw [evaluate_of_agree locals e agree]
  | .block _ body, _, _, locals, agree => renderNodes_of_agree body locals agree
  | .inclusion _, _, _, _, _ => rfl
  | .inherit _, _, _, _, _ => rfl
  | .definition _ _ _, _, _, _, _ => rfl
  | .imports _ _, _, _, _, _ => rfl
  | .parent, _, _, _, _ => rfl

theorem renderAlternative_of_agree : ∀ (a : Alternative) {c c' : Table Value}
    (locals : Table Value), AgreeOn a.mentions c c' →
    renderAlternative r run ⟨.object c, locals, macros⟩ a =
      renderAlternative r run ⟨.object c', locals, macros⟩ a
  | .choice condition body rest, _, _, locals, agree => by
    have asked : Frame.test ⟨.object _, locals, macros⟩ condition = Frame.test _ condition :=
      Frame.test_of_agree (agree _ List.mem_cons_self) locals macros
    have inner := renderNodes_of_agree body locals fun name member =>
      agree.left name (List.mem_cons_of_mem _ member)
    have others := renderAlternative_of_agree rest locals agree.right
    unfold renderAlternative
    rw [asked, inner, others]
  | .otherwise body, _, _, locals, agree => renderNodes_of_agree body locals agree

/-- **What nodes become depends on the variables that they mention**, and so do the locals that they
leave. -/
theorem renderNodes_of_agree : ∀ (ns : List Node) {c c' : Table Value} (locals : Table Value),
    AgreeOn (mentionsAll ns) c c' →
    renderNodes r run ⟨.object c, locals, macros⟩ ns =
      renderNodes r run ⟨.object c', locals, macros⟩ ns
  | [], _, _, _, _ => rfl
  | n :: ns, _, _, locals, agree => by
    have first := renderNode_of_agree n locals agree.left
    have others (locals : Table Value) := renderNodes_of_agree ns locals agree.right
    unfold renderNodes
    rw [first]
    simp only [others]

end

/-- **Output depends only on the variables that a template mentions.** Nodes are rendered to the
same text or the same failure, and leave the same locals, in any two contexts that agree on
these. -/
theorem render_of_agree (r : Renderer) (nodes : List Node) (locals : Table Value)
    (macros : Table Macro) {c c' : Table Value} (agree : AgreeOn (mentionsAll nodes) c c') :
    r.render ⟨.object c, locals, macros⟩ nodes = r.render ⟨.object c', locals, macros⟩ nodes := by
  unfold render
  rw [renderNodes_of_agree nodes locals agree]

/-- A loop over rows with a condition in it, and a macro that mentions something else. -/
def report : List Node :=
  [.definition "m" [] [.output (.path "key")],
    .loop "row" (.path "rows") none
      [.output (.path "row.name"), .choice ⟨"user.admin", none⟩ [.text "!"] (.otherwise [])],
    .assign "title" (.path "user.name")]

/-- Data for it, with a key that it does not mention. -/
def known (key : String) : Table Value :=
  [("key", .str key),
    ("rows", .list [.object [("name", .str "a")], .object [("name", .str "b")]]),
    ("user", .object [("admin", .bool true), ("name", .str "u")])]

theorem render_of_agree_report :
    AgreeOn (mentionsAll report) (known "k") (known "l") ∧
      render ⟨none, [], 64⟩ ⟨.object (known "k"), [], []⟩ report =
        render ⟨none, [], 64⟩ ⟨.object (known "l"), [], []⟩ report ∧
      (render ⟨none, [], 64⟩ ⟨.object (known "k"), [], []⟩ report).1 = .ok "a!b!" := by
  have names : mentionsAll report = ["rows", "row", "user", "user"] := by decide
  have agree : AgreeOn (mentionsAll report) (known "k") (known "l") := by
    intro name member
    rw [names] at member
    simp only [List.mem_cons, List.not_mem_nil, or_false] at member
    rcases member with rfl | rfl | rfl | rfl <;> simp [known, Table.find?]
  exact ⟨agree, render_of_agree ⟨none, [], 64⟩ report [] [] agree, by decide⟩

end Renderer

end Stencil
