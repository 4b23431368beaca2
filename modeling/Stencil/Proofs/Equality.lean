/-
# Equality of trees is decided

Values, expressions, nodes and macros hold lists of their own kind. Two of them
are compared along both at once, and the comparison holds just if they are equal.
So what a source is read as, and what a template comes to, is told by evaluation.

Key definitions: `Value.same`, `Expr.same`, `Node.same`, `Macro.same`.
Key theorems: `Value.same_iff`, `Expr.same_iff`, `Node.same_iff`, `Macro.same_iff`.
-/
import Stencil.Syntax

namespace Stencil

/-! ### Values -/

namespace Value

mutual

def same : Value → Value → Bool
  | null, null => true
  | bool b, bool c => b = c
  | int m, int n => m = n
  | float x, float y => x = y
  | str s, str t => s = t
  | points ps, points qs => ps = qs
  | list vs, list ws => sameItems vs ws
  | tuple vs, tuple ws => sameItems vs ws
  | object fs, object gs => sameFields fs gs
  | foreign s, foreign t => s = t
  | date d, date e => d = e
  | moment t, moment u => t = u
  | _, _ => false

def sameItems : List Value → List Value → Bool
  | [], [] => true
  | v :: vs, w :: ws => same v w && sameItems vs ws
  | _, _ => false

def sameFields : List (String × Value) → List (String × Value) → Bool
  | [], [] => true
  | (s, v) :: fs, (t, w) :: gs => s = t && same v w && sameFields fs gs
  | _, _ => false

end

mutual

theorem same_iff : ∀ v w : Value, same v w = true ↔ v = w
  | list vs, w | tuple vs, w => by cases w <;> simp [same, sameItems_iff vs]
  | object fs, w => by cases w <;> simp [same, sameFields_iff fs]
  | null, w | bool _, w | int _, w | float _, w | str _, w | points _, w | foreign _, w
  | date _, w | moment _, w => by cases w <;> simp [same]

theorem sameItems_iff : ∀ vs ws : List Value, sameItems vs ws = true ↔ vs = ws
  | [], ws => by cases ws <;> simp [sameItems]
  | v :: vs, ws => by cases ws <;> simp [sameItems, same_iff v, sameItems_iff vs]

theorem sameFields_iff : ∀ fs gs : List (String × Value), sameFields fs gs = true ↔ fs = gs
  | [], gs => by cases gs <;> simp [sameFields]
  | (_, v) :: fs, gs => by
    cases gs <;> simp [sameFields, same_iff v, sameFields_iff fs, Prod.ext_iff]

end

instance : DecidableEq Value := fun v w =>
  decidable_of_iff (same v w = true) (same_iff v w)

end Value

/-! ### Expressions -/

namespace Expr

mutual

def same : Expr → Expr → Bool
  | literal v, literal w => v = w
  | path p, path q => p = q
  | call f ds, call g es => f = g && sameArguments ds es
  | filtered d f, filtered e g => same d e && f = g
  | _, _ => false

def sameArguments : List Expr → List Expr → Bool
  | [], [] => true
  | d :: ds, e :: es => same d e && sameArguments ds es
  | _, _ => false

end

mutual

theorem same_iff : ∀ d e : Expr, same d e = true ↔ d = e
  | literal _, e | path _, e => by cases e <;> simp [same]
  | call _ ds, e => by cases e <;> simp [same, sameArguments_iff ds]
  | filtered d _, e => by cases e <;> simp [same, same_iff d]

theorem sameArguments_iff : ∀ ds es : List Expr, sameArguments ds es = true ↔ ds = es
  | [], es => by cases es <;> simp [sameArguments]
  | d :: ds, es => by cases es <;> simp [sameArguments, same_iff d, sameArguments_iff ds]

end

instance : DecidableEq Expr := fun d e =>
  decidable_of_iff (same d e = true) (same_iff d e)

end Expr

deriving instance DecidableEq for Condition

/-! ### Nodes -/

mutual

def Node.same : Node → Node → Bool
  | .text s, .text t => s = t
  | .output d, .output e => d = e
  | .loop i d f ns, .loop j e g ms => i = j && d = e && f = g && sameNodes ns ms
  | .choice c ns a, .choice d ms b => c = d && sameNodes ns ms && a.same b
  | .assign s d, .assign t e => s = t && d = e
  | .inherit s, .inherit t => s = t
  | .block s ns, .block t ms => s = t && sameNodes ns ms
  | .inclusion s, .inclusion t => s = t
  | .definition s ps ns, .definition t qs ms => s = t && ps = qs && sameNodes ns ms
  | .imports s ps, .imports t qs => s = t && ps = qs
  | .parent, .parent => true
  | _, _ => false

def Alternative.same : Alternative → Alternative → Bool
  | .choice c ns a, .choice d ms b => c = d && sameNodes ns ms && a.same b
  | .otherwise ns, .otherwise ms => sameNodes ns ms
  | _, _ => false

def sameNodes : List Node → List Node → Bool
  | [], [] => true
  | n :: ns, m :: ms => n.same m && sameNodes ns ms
  | _, _ => false

end

mutual

theorem Node.same_iff : ∀ n m : Node, n.same m = true ↔ n = m
  | .loop _ _ _ ns, m | .block _ ns, m | .definition _ _ ns, m => by
    cases m <;> simp [Node.same, sameNodes_iff ns, and_assoc]
  | .choice _ ns a, m => by cases m <;> simp [Node.same, sameNodes_iff ns, a.same_iff, and_assoc]
  | .text _, m | .output _, m | .assign _ _, m | .inherit _, m | .inclusion _, m | .imports _ _, m
  | .parent, m => by cases m <;> simp [Node.same]

theorem Alternative.same_iff : ∀ a b : Alternative, a.same b = true ↔ a = b
  | .choice _ ns a, b => by
    cases b <;> simp [Alternative.same, sameNodes_iff ns, a.same_iff, and_assoc]
  | .otherwise ns, b => by cases b <;> simp [Alternative.same, sameNodes_iff ns]

theorem sameNodes_iff : ∀ ns ms : List Node, sameNodes ns ms = true ↔ ns = ms
  | [], ms => by cases ms <;> simp [sameNodes]
  | n :: ns, ms => by cases ms <;> simp [sameNodes, n.same_iff, sameNodes_iff ns]

end

instance : DecidableEq Node := fun n m =>
  decidable_of_iff (n.same m = true) (n.same_iff m)

/-! ### Macros -/

namespace Macro

mutual

def same : Macro → Macro → Bool
  | mk ps ns none, mk qs ms none => ps = qs && ns = ms
  | mk ps ns (some t), mk qs ms (some u) => ps = qs && ns = ms && sameTable t u
  | _, _ => false

def sameTable : List (String × Macro) → List (String × Macro) → Bool
  | [], [] => true
  | (s, m) :: t, (r, n) :: u => s = r && same m n && sameTable t u
  | _, _ => false

end

mutual

theorem same_iff : ∀ m n : Macro, same m n = true ↔ m = n
  | mk _ _ none, mk _ _ scope => by cases scope <;> simp [same]
  | mk _ _ (some t), mk _ _ scope => by cases scope <;> simp [same, sameTable_iff t, and_assoc]

theorem sameTable_iff : ∀ t u : List (String × Macro), sameTable t u = true ↔ t = u
  | [], u => by cases u <;> simp [sameTable]
  | (_, m) :: t, u => by
    cases u <;> simp [sameTable, same_iff m, sameTable_iff t, Prod.ext_iff]

end

instance : DecidableEq Macro := fun m n =>
  decidable_of_iff (same m n = true) (same_iff m n)

end Macro

end Stencil
