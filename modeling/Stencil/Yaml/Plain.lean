/-
# Scalars of YAML without quotes

A scalar without quotes starts with a character that means nothing by itself
there and goes on up to a colon with a gap after it, a comment, or, in flow
style, a comma, a question mark or a bracket. It may go on in the following
lines as long as they are indented.

Key definitions: `Yaml.startsPlain`, `Yaml.endsPlain`, `Yaml.plain?`.
-/
import Stencil.Yaml.Quoted

namespace Stencil.Yaml

/-- The characters that no scalar without quotes starts with, whatever follows them. -/
def reserved : List Char :=
  [',', '[', ']', '\x7b', '\x7d', '#', '&', '*', '!', '|', '>', '\'', '"', '%', '@', '\x60']

/-- Whether a scalar without quotes starts here. -/
def startsPlain (flow : Bool) : List Char → Bool
  | [] => false
  | c :: cs =>
    if c = '-' then !cs.head?.any isBlank
    else if c = '?' || c = ':' then !flow && !atGap cs
    else !reserved.contains c && !atGap [c]

/-- The characters that end a scalar without quotes in flow style. -/
def flowMarks : List Char := [',', ':', '?', '[', ']', '\x7b', '\x7d']

/-- Whether a word of a scalar without quotes ends here. -/
def endsPlain (flow : Bool) : List Char → Bool
  | [] => true
  | c :: cs => atGap [c] || (c = ':' && atGap cs) || (flow && flowMarks.contains c)

/-- Whether a colon stands here with no gap after it. -/
def atTightColon : List Char → Bool
  | ':' :: cs => !atGap cs
  | _ => false

/-- Further blanks and line ends of a gap. Tabs may not indent a line. -/
def gapFrom? (indent : Int) (g : Gap) (p : Place) : List Char → Option (Gap × Place)
  | [] => some (g, p)
  | c :: cs =>
    if isBreak c then gapFrom? indent (g.lineEnd c) (p.after c cs) cs
    else if isBlank c then
      if g.hasBreaks && p.column < indent && c = '\t' then none
      else gapFrom? indent (g.blank c) (p.after c cs) cs
    else some (g, p)

/-- The words of a scalar without quotes after a gap, whether the place after them is on a line of
its own, and that place. A line goes on with the scalar if it is indented by `indent`. Each turn
reads at least one character. -/
def plainFrom? (flow : Bool) (indent : Int) : Nat → Gap → Place → Option (List Char × Bool × Place)
  | 0, _, _ => none
  | turns + 1, g, p =>
    if p.atMarker || p.rest.head? = some '#' then some ([], g.hasBreaks, p)
    else
      let (word, q) := p.takeWhile fun cs => !endsPlain flow cs
      if flow && atTightColon q.rest then none
      else
        let text := if word.isEmpty then [] else g.text ++ word
        if q.rest.isEmpty || !atGap q.rest then some (text, word.isEmpty && g.hasBreaks, q)
        else
          match gapFrom? indent .none q q.rest with
          | none => none
          | some (h, r) =>
            if !flow && r.column < indent then some (text, h.hasBreaks, r)
            else (plainFrom? flow indent turns h r).map fun t => (text ++ t.1, t.2)

/-- The scalar without quotes that starts at a place. -/
def plain? (flow : Bool) (indent : Int) (turns : Nat) (p : Place) :
    Option (Scalar × Bool × Place) :=
  (plainFrom? flow indent turns .none p).map fun t => (⟨false, t.1⟩, t.2)

end Stencil.Yaml
