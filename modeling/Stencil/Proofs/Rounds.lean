/-
# What the body of a loop sees

A loop runs its body in a round for each item. A round has a frame of its own: its
context holds the variables of the frame around the loop, then the item, and then
what the loop tells about it; its locals are empty.

A frame reads a variable from its context, and from its locals only if the context
does not hold it. The context of a round is made the other way about: the locals
are put over the context. So in every round of every loop, however deep it stands
in others, a path leads where it would if the frame around the loop had its context
and its locals exchanged. That is what it leads to outside if not both hold the
variable that the path starts from, or if the rest of the path leads to the same
from either; in no other case is it.

Key definitions: `Frame.Regular`, `Frame.exchanged`, `Round`, `Renderer.Starts`.
Key theorems: `Renderer.Starts.regular`, `Round.lookup_frame`, `Renderer.round_sees`.
-/
import Stencil.Proofs.Assignments
import Stencil.Proofs.Equality
import Stencil.Proofs.Mentions
import Stencil.Proofs.Tables

namespace Stencil

namespace Frame

/-- What a path leads on through from its variable. -/
def rest (path : String) : List String :=
  (segments path).tail

/-- A path leads on from the variable that it starts from. -/
theorem lookup_eq (f : Frame) (path : String) :
    f.lookup path =
      match f.binding path (first path) with
      | .ok v => walk path v (rest path)
      | .error e => .error e := by
  unfold lookup first rest
  rcases segments path with _ | ⟨name, segments⟩
  · dsimp only [List.headD, List.tail]
    cases f.binding path "" <;> rfl
  · rfl

/-- The fields of the context, of which there are none if it is not an object. -/
def fields (f : Frame) : Table Value :=
  match f.context with
  | .object fields => fields
  | _ => []

/-- A frame over an object, whose locals have distinct names. -/
structure Regular (f : Frame) : Prop where
  context : f.context = .object f.fields
  distinct : (Table.names f.locals).Nodup

/-- The frame in which the locals come first, then the context. -/
def exchanged (f : Frame) : Frame :=
  ⟨.object f.locals, f.fields, f.macros⟩

theorem find?_visible {f : Frame} (distinct : (Table.names f.locals).Nodup) (name : String) :
    Table.find? name f.visible = (Table.find? name f.locals).or (Table.find? name f.fields) :=
  Table.find?_putAll f.locals distinct

/-- What a frame binds is found in its context or else in its locals. -/
theorem binding_of_context {f : Frame} {fields : Table Value} (context : f.context = .object fields)
    (path name : String) :
    f.binding path name =
      match (Table.find? name fields).or (Table.find? name f.locals) with
      | some v => .ok v
      | none => .error (.of (.variableNotFound path)) := by
  obtain ⟨_, locals, macros⟩ := f
  cases context
  rfl

/-- **When the order of context and locals matters.** Only where both hold the variable that a path
starts from, and the path leads from the two to different ends. -/
theorem exchanged_lookup_iff {f : Frame} (regular : f.Regular) (path : String) :
    f.exchanged.lookup path = f.lookup path ↔
      ∀ c l, Table.find? (first path) f.fields = some c →
        Table.find? (first path) f.locals = some l →
          walk path c (rest path) = walk path l (rest path) := by
  have inner : f.exchanged.binding path (first path) = _ :=
    binding_of_context (f := f.exchanged) rfl path (first path)
  rw [lookup_eq, lookup_eq, inner, binding_of_context regular.context]
  unfold exchanged
  dsimp only
  cases Table.find? (first path) f.fields with
  | none => simp
  | some c =>
    cases Table.find? (first path) f.locals with
    | none => simp
    | some l => simpa using eq_comm

end Frame

/-! ### Rounds -/

/-- One run of the body of a loop. -/
structure Round where
  /-- The frame just before the loop. -/
  outer : Frame
  item : String
  value : Value
  index : Nat
  /-- How many rounds the loop has. -/
  length : Nat

namespace Round

/-- The frame in which the body starts. -/
def frame (t : Round) : Frame :=
  ⟨.object (Table.put "loop" (loopObject t.index t.length)
    (Table.put t.item t.value t.outer.visible)), [], t.outer.macros⟩

theorem regular (t : Round) : t.frame.Regular :=
  ⟨rfl, .nil⟩

/-- In the frame of a round a variable is what the frame around it shows of it. -/
theorem find?_frame (t : Round) {name : String} (notItem : name ≠ t.item)
    (notLoop : name ≠ "loop") :
    Table.find? name t.frame.fields = Table.find? name t.outer.visible := by
  show Table.find? name (Table.put "loop" _ (Table.put t.item t.value t.outer.visible)) = _
  rw [Table.find?_put_ne notLoop, Table.find?_put_ne notItem]

/-- **A round sees its surroundings with the locals before the context.** -/
theorem lookup_frame {t : Round} (distinct : (Table.names t.outer.locals).Nodup) {path : String}
    (notItem : Frame.first path ≠ t.item) (notLoop : Frame.first path ≠ "loop") :
    t.frame.lookup path = t.outer.exchanged.lookup path := by
  have bound : t.frame.binding path (Frame.first path) =
      t.outer.exchanged.binding path (Frame.first path) := by
    rw [Frame.binding_of_context (f := t.frame) rfl,
      Frame.binding_of_context (f := t.outer.exchanged) rfl]
    have seen := (t.find?_frame notItem notLoop).trans (Frame.find?_visible distinct _)
    show (match (Table.find? _ t.frame.fields).or none with | some v => _ | none => _) = _
    rw [seen, Option.or_none]
    rfl
  rw [Frame.lookup_eq, Frame.lookup_eq, bound]

end Round

/-- The rounds of a loop over items. -/
def Frame.rounds (f : Frame) (item : String) (items : List Value) : List Round :=
  items.zipIdx.map fun (value, index) => ⟨f, item, value, index, items.length⟩

theorem Frame.outer_of_mem_rounds {f : Frame} {item : String} {items : List Value} {t : Round}
    (member : t ∈ f.rounds item items) : t.outer = f ∧ t.item = item := by
  obtain ⟨⟨value, index⟩, -, rfl⟩ := List.mem_map.mp member
  exact ⟨rfl, rfl⟩

namespace Renderer

variable {r : Renderer} {run : Runner}

/-- A loop runs its body in the frames of its rounds. -/
theorem renderNode_rounds {f : Frame} {item : String} {source : Expr} {filter : Option FilterSpec}
    {items : List Value} (body : List Node) (listed : loopItems r run f source filter = .ok items) :
    renderNode r run f (.loop item source filter body) =
      (((f.rounds item items).mapM fun t => (renderNodes r run t.frame body).1).map List.flatten,
        f.locals) := by
  rw [Evaluation.renderNode_loop, ← Evaluation.loopItems_eq, listed]
  dsimp only
  unfold Evaluation.renderContexts Evaluation.contexts Frame.rounds
  rw [List.mapM_map, List.mapM_map]
  rfl

mutual

/-- Rendering a node comes to the start of a round. -/
inductive NodeStarts (r : Renderer) (run : Runner) : Frame → Node → Round → Prop
  | here {f item source filter body items t} (listed : loopItems r run f source filter = .ok items)
    (member : t ∈ f.rounds item items) : NodeStarts r run f (.loop item source filter body) t
  | inside {f item source filter body items u t}
    (listed : loopItems r run f source filter = .ok items) (member : u ∈ f.rounds item items)
    (inner : Starts r run u.frame body t) : NodeStarts r run f (.loop item source filter body) t
  | block {f name body t} (inner : Starts r run f body t) : NodeStarts r run f (.block name body) t
  | choice {f c body rest t} (branch : RestStarts r run f (.choice c body rest) t) :
    NodeStarts r run f (.choice c body rest) t

/-- Rendering what is left of a choice does. -/
inductive RestStarts (r : Renderer) (run : Runner) : Frame → Alternative → Round → Prop
  | holds {f c body rest t} (test : f.test c = .ok true) (inner : Starts r run f body t) :
    RestStarts r run f (.choice c body rest) t
  | next {f c body rest t} (test : f.test c = .ok false) (others : RestStarts r run f rest t) :
    RestStarts r run f (.choice c body rest) t
  | otherwise {f body t} (inner : Starts r run f body t) : RestStarts r run f (.otherwise body) t

/-- Rendering nodes in order does. -/
inductive Starts (r : Renderer) (run : Runner) : Frame → List Node → Round → Prop
  | head {f n ns t} (first : NodeStarts r run f n t) : Starts r run f (n :: ns) t
  | later {f n ns texts locals t} (first : renderNode r run f n = (.ok texts, locals))
    (others : Starts r run { f with locals } ns t) : Starts r run f (n :: ns) t

end

/-! ### Frames stay regular

Nothing but an assignment changes the locals, and an assignment binds one name. -/

/-- A frame is still regular behind a node. -/
theorem regular_of_renderNode {f : Frame} (regular : f.Regular) {n : Node} {texts : List String}
    {locals : Table Value} (made : renderNode r run f n = (.ok texts, locals)) :
    Frame.Regular { f with locals } := by
  have distinct : (Table.names (renderNode r run f n).2).Nodup :=
    renderNode_keeps (P := fun t => (Table.names t).Nodup) n (fun _ _ v _ h => Table.nodup_put v h)
      regular.distinct
  rw [made] at distinct
  exact ⟨regular.context, distinct⟩

mutual

theorem NodeStarts.regular {f : Frame} {n : Node} {t : Round} (regular : f.Regular) :
    NodeStarts r run f n t → t.outer.Regular
  | .here _ member => (Frame.outer_of_mem_rounds member).1 ▸ regular
  | .inside (u := u) _ _ inner => inner.regular u.regular
  | .block inner => inner.regular regular
  | .choice branch => branch.regular regular

theorem RestStarts.regular {f : Frame} {a : Alternative} {t : Round} (regular : f.Regular) :
    RestStarts r run f a t → t.outer.Regular
  | .holds _ inner => inner.regular regular
  | .next _ others => others.regular regular
  | .otherwise inner => inner.regular regular

/-- Every loop, at whatever depth, starts from a regular frame. -/
theorem Starts.regular {f : Frame} {ns : List Node} {t : Round} (regular : f.Regular) :
    Starts r run f ns t → t.outer.Regular
  | .head first => first.regular regular
  | .later first others => others.regular (regular_of_renderNode regular first)

end

/-- **What a round sees of its surroundings.** In every round that rendering comes to, at whatever
depth of loops, a path that starts neither from the item nor from `loop` leads where it leads from
the frame around the loop with the locals before the context. That is what it leads to just before
the loop if and only if not both hold its variable, or the path leads from both to the same. -/
theorem round_sees {f : Frame} (regular : f.Regular) {ns : List Node} {t : Round}
    (starts : Starts r run f ns t) {path : String} (notItem : Frame.first path ≠ t.item)
    (notLoop : Frame.first path ≠ "loop") :
    t.frame.lookup path = t.outer.exchanged.lookup path ∧
      (t.frame.lookup path = t.outer.lookup path ↔
        ∀ c l, Table.find? (Frame.first path) t.outer.fields = some c →
          Table.find? (Frame.first path) t.outer.locals = some l →
            Frame.walk path c (Frame.rest path) = Frame.walk path l (Frame.rest path)) := by
  have outer : t.outer.Regular := starts.regular regular
  have seen := Round.lookup_frame outer.distinct notItem notLoop
  rw [seen]
  exact ⟨rfl, Frame.exchanged_lookup_iff outer path⟩

/-- Data that holds a variable which is then assigned. -/
def held : Frame :=
  ⟨.object [("x", .str "context"), ("items", .list [.int 1])], [], []⟩

/-- The variable is printed just before a loop and in it. -/
def hidden : List Node :=
  [.assign "x" (.literal (.str "local")), .output (.path "x"),
    .loop "i" (.path "items") none [.output (.path "x")]]

/-- The only round of the loop. -/
def only : Round :=
  ⟨{ held with locals := [("x", .str "local")] }, "i", .int 1, 0, 1⟩

theorem round_sees_hidden :
    held.Regular ∧ Starts ⟨none, [], 64⟩ none held hidden only ∧
      only.outer.lookup "x" = .ok (.str "context") ∧
      only.frame.lookup "x" = only.outer.exchanged.lookup "x" ∧
      only.outer.exchanged.lookup "x" = .ok (.str "local") ∧
      (render ⟨none, [], 64⟩ held hidden).1 = .ok "contextlocal" := by
  have regular : held.Regular := ⟨rfl, .nil⟩
  have assigned : renderNode ⟨none, [], 64⟩ none held (.assign "x" (.literal (.str "local"))) =
      (.ok [], only.outer.locals) := rfl
  have printed : renderNode ⟨none, [], 64⟩ none only.outer (.output (.path "x")) =
      (.ok ["context"], only.outer.locals) := by decide
  have listed : loopItems ⟨none, [], 64⟩ none only.outer (.path "items") none =
      .ok [.int 1] := by decide
  have member : only ∈ only.outer.rounds "i" [.int 1] := List.mem_singleton.mpr rfl
  have starts : Starts ⟨none, [], 64⟩ none held hidden only :=
    .later assigned (.later printed (.head (.here listed member)))
  have notItem : Frame.first "x" ≠ only.item := by decide
  have sees := round_sees regular starts notItem (by decide)
  exact ⟨regular, starts, by decide, sees.1, by decide, by decide⟩

end Renderer

end Stencil
