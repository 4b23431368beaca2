/-
# Sources in a row

A source that is accepted ends in a region of text, behind the last tag if there is
one. Another source behind it goes on in that region: its text is joined to the text
there is, and from its first tag on it is read as it is by itself, on later lines. So
its nodes follow the nodes there are, and if it fails, it fails in the same way. This
holds unless a brace ends the first source, which might begin a tag with the second.

Between an opening tag and the tag that closes it a source is read in the same way,
as the body of one node.

Key definitions: `LastRegion`, `Lexer.Seam`, `Node.joined`, `Phrase.Encloses`, `Lexer.Written`.
Key theorems: `exists_lastRegion`, `Parse.body_joins`, `parseTemplate_append`,
`parseTemplate_enclosed`, `parse_compositional`.
-/
import Stencil.Proofs.Acceptance
import Stencil.Proofs.Splicing

namespace Stencil

/-! ### The ends of a row of nodes -/

namespace Phrase

open Terminal

/-- How the tokens of a row of nodes end: in text, which is the last node then, or in a tag. -/
inductive Last : List Terminal → List Node → Prop
  | none : Last [] []
  | text {init : List Terminal} {front : List Node} {s : String} (items : Items init front) :
    Last (init ++ [⟨.text, s⟩]) (front ++ [.text s])
  | tag {init : List Terminal} {b : Terminal} {front : List Node} {node : Node}
    (ends : b.kind = .variableEnd ∨ b.kind = .tagEnd) (other : ∀ s, node ≠ .text s) :
    Last (init ++ [b]) (front ++ [node])

/-- The tokens of a node that is no text end in a tag, and go before those of other nodes. -/
structure Closed (ts : List Terminal) (node : Node) : Prop where
  ends : ∃ init b, ts = init ++ [b] ∧ (b.kind = .variableEnd ∨ b.kind = .tagEnd)
  other : ∀ s, node ≠ .text s
  before : ∀ {us nodes}, Items us nodes → Items (ts ++ us) (node :: nodes)

theorem Closed.last {ts us : List Terminal} {node : Node} {nodes : List Node}
    (h : Closed ts node) (rest : Last us nodes) : Last (ts ++ us) (node :: nodes) := by
  obtain ⟨⟨init, b, rfl, ends⟩, other, before⟩ := h
  cases rest with
  | none =>
    rw [List.append_nil]
    exact @Last.tag init b [] node ends other
  | text items =>
    rw [← List.append_assoc]
    exact .text (before items)
  | @tag init' b' front node' ends' other' =>
    rw [← List.append_assoc]
    exact @Last.tag _ b' (node :: front) node' ends' other'

theorem Frame.make_ne_text {k closer : Keyword} {ts : List Terminal} {make : List Node → Node}
    (h : Frame k closer ts make) (body : List Node) (s : String) : make body ≠ .text s := by
  cases h <;> exact nofun

theorem Simple.ne_text {k : Keyword} {ts : List Terminal} {node : Node} (h : Simple k ts node)
    (s : String) : node ≠ .text s := by
  cases h <;> exact nofun

theorem append_tag (xs : List Terminal) (k : Keyword) (ts : List Terminal) :
    xs ++ tag k ts = (xs ++ fixed .tagStart :: word k :: ts) ++ [fixed .tagEnd] := by
  simp [tag]

/-- A choice ends in a tag. -/
theorem Rest.last : ∀ {ts : List Terminal} {other : Alternative}, Rest ts other →
    ∃ init, ts = init ++ [fixed .tagEnd]
  | _, _, @Rest.elif ts bs _ _ _ _ _ _ other => by
    obtain ⟨init, rfl⟩ := other.last
    exact ⟨tag .elifTag ts ++ (bs ++ init), by rw [List.append_assoc, List.append_assoc]⟩
  | _, _, @Rest.otherwise bs _ _ =>
    ⟨_, by rw [← List.append_assoc, append_tag]⟩
  | _, _, .none => ⟨[fixed .tagStart, word .endifTag], rfl⟩

/-- **The tokens of a row of nodes end** in text or in a tag. -/
theorem Items.last : ∀ {ts : List Terminal} {nodes : List Node}, Items ts nodes → Last ts nodes
  | _, _, .nil => .none
  | _, _, @Items.plain ts us node nodes first rest => by
    have behind := rest.last
    cases first with
    | @text s =>
      cases behind with
      | none => exact .text .nil
      | text items => exact .text (.plain .text items)
      | @tag init b front node ends other =>
        exact @Last.tag (⟨.text, s⟩ :: init) b (.text s :: front) node ends other
    | @output ts e expression =>
      have closed : Closed (fixed .variableStart :: (ts ++ [fixed .variableEnd])) (.output e) :=
        ⟨⟨fixed .variableStart :: ts, _, rfl, .inl rfl⟩, nofun, .plain (.output expression)⟩
      exact closed.last behind
    | @tag k ts _ simple =>
      have closed : Closed (Phrase.tag k ts) node :=
        ⟨⟨fixed .tagStart :: word k :: ts, _, rfl, .inr rfl⟩, simple.ne_text, .plain (.tag simple)⟩
      exact closed.last behind
  | _, _, @Items.frame k closer ts bs us make body nodes first inner rest => by
    have closed : Closed (tag k ts ++ (bs ++ tag closer [])) (make body) :=
      ⟨⟨_, fixed .tagEnd, by rw [← List.append_assoc, append_tag], .inr rfl⟩,
        first.make_ne_text body, fun items => by
          rw [List.append_assoc, List.append_assoc]
          exact .frame first inner items⟩
    have whole := closed.last rest.last
    rwa [List.append_assoc, List.append_assoc] at whole
  | _, _, @Items.choice ts bs as us c body nodes otherwise first inner other rest => by
    obtain ⟨init, ends⟩ := other.last
    have closed : Closed (tag .ifTag ts ++ (bs ++ as)) (.choice c body otherwise) :=
      ⟨⟨tag .ifTag ts ++ (bs ++ init), fixed .tagEnd, by
          rw [ends, List.append_assoc, List.append_assoc], .inr rfl⟩, nofun, fun items => by
          rw [List.append_assoc, List.append_assoc]
          exact .choice first inner other items⟩
    have whole := closed.last rest.last
    rwa [List.append_assoc, List.append_assoc] at whole

/-- The first node is text only if the first token is. -/
theorem Items.first_text {ts : List Terminal} {s : String} {nodes : List Node}
    (h : Items ts (.text s :: nodes)) : ∃ us, ts = ⟨.text, s⟩ :: us := by
  generalize whole : Node.text s :: nodes = all at h
  cases h with
  | nil => cases whole
  | plain first rest =>
    cases whole
    cases first with
    | text => exact ⟨_, rfl⟩
    | tag simple => exact absurd rfl (simple.ne_text s)
  | frame first inner rest => exact absurd (List.cons.inj whole).1.symm (first.make_ne_text _ s)
  | choice => cases whole

end Phrase

/-! ### The region that a source ends in -/

/-- Text as the nodes it makes: none if it is empty. -/
def textNodes (cs : List Char) : List Node :=
  if cs = [] then [] else [.text (String.ofList cs)]

/-- Text as the tokens it gives: none if it is empty. -/
def textTerminals (cs : List Char) : List Terminal :=
  if cs = [] then [] else [⟨.text, String.ofList cs⟩]

namespace Lexer

theorem modeAfter_of_ends {kind : TokenKind} (h : kind = .variableEnd ∨ kind = .tagEnd) :
    kind.modeAfter = .text := by
  rcases h with rfl | rfl <;> rfl

/-- The last token of a row says in which mode the lexer is left. -/
theorem Row.mode_of_last {s t : Lexer} {init : List Terminal} {b : Terminal}
    (h : Row s (init ++ [b]) t) : t.mode = b.kind.modeAfter := by
  obtain ⟨s', -, final⟩ := h.split
  cases final with
  | cons step rest =>
    cases rest
    exact step.mode

/-- The tokens of a row of nodes lead from text to text. -/
theorem Row.mode_of_items {s t : Lexer} {ts : List Terminal} {nodes : List Node} (h : Row s ts t)
    (items : Phrase.Items ts nodes) (between : s.mode = .text) : t.mode = .text := by
  have last := items.last
  cases last with
  | none =>
    cases h
    exact between
  | text => exact h.mode_of_last
  | tag ends =>
    rw [h.mode_of_last]
    exact modeAfter_of_ends ends

/-- In text the end is read behind a region with no text. -/
theorem Ends.passes {s s' : Lexer} (h : Ends s s') (between : s.mode = .text) :
    ∃ r, Passes s.rest r ∧ r.unterminated = false ∧ r.text = [] ∧ r.rest = [] := by
  obtain ⟨skipped, ahead, -⟩ := h.ahead
  generalize s.rest = cs at ahead ⊢
  generalize s.mode = mode at ahead between
  cases ahead with
  | textEnd passes closed none ended => exact ⟨_, passes, closed, none, ended⟩
  | tagUnclosed => cases between

/-- In text the end is read where nothing is left. -/
theorem ends_of_rest {s : Lexer} (between : s.mode = .text) (ended : s.rest = []) :
    Ends s (s.advance [] []) := by
  have ahead : Ahead s.mode s.rest (.finish []) := by
    rw [between, ended]
    exact .textEnd .nil rfl rfl rfl
  exact ⟨_, next_of_ahead ahead⟩

/-- In front of text stands the end of a tag, if anything does. -/
theorem Row.closed_of_text {s m t : Lexer} {init : List Terminal} {a : Terminal}
    (h : Row s init m) (step : Step m a t) (text : a.kind = .text) :
    ∀ b ∈ init.getLast?, b.kind = .variableEnd ∨ b.kind = .tagEnd := by
  intro b hb
  obtain ⟨ts, rfl⟩ := List.getLast?_eq_some_iff.mp hb
  obtain ⟨t₀, -, final⟩ := h.split
  cases final with
  | cons step' rest =>
    cases rest
    have between : m.mode = .text := by rw [← step.modeBefore, text]; rfl
    exact ends_of_modeAfter (step'.mode.symm.trans between) fun text' =>
      step'.ne_text text' step text

/-- Text behind which the source ends is the text of a region that ends the source. -/
theorem Step.passes_of_ends {m t t' : Lexer} {a : Terminal} (h : Step m a t) (text : a.kind = .text)
    (ends : Ends t t') : ∃ r, Passes m.rest r ∧ r.unterminated = false ∧ r.rest = [] ∧
      r.text ≠ [] ∧ a.value = String.ofList r.text := by
  have mode : t.mode = .text := by rw [h.mode, text]; rfl
  obtain ⟨skipped, written, ahead, -⟩ := h.ahead
  obtain ⟨r, passes, terminated, some, value, left⟩ := ahead.textRegion text
  refine ⟨r, passes, terminated, ?_, some, value⟩
  -- Behind text there is a tag or the end, and no tag can stand in front of the end.
  rw [left]
  obtain ⟨q, passes', -, -, ended⟩ := ends.passes mode
  rcases ahead.tagged text with none | ⟨c, tail, known, found⟩
  · exact none
  · rw [found] at passes'
    have same := (@Passes.tag c tail known).eq.symm.trans passes'.eq
    rw [← same] at ended
    cases ended

end Lexer

open Lexer

/-- Nodes end in text only if their tokens do. -/
theorem Phrase.Items.getLast?_ne_text {ts : List Terminal} {nodes : List Node}
    (h : Items ts nodes) (closed : ∀ b ∈ ts.getLast?, b.kind = .variableEnd ∨ b.kind = .tagEnd)
    (s : String) : nodes.getLast? ≠ some (.text s) := by
  intro found
  have last := h.last
  cases last with
  | none => cases found
  | text _ => rcases closed _ List.getLast?_concat with kind | kind <;> cases kind
  | tag ends other =>
    rw [List.getLast?_concat, Option.some.injEq] at found
    exact other s found

/-- The region of text that a source ends in: the tokens in front of it end in a tag, if there are
any, and make all nodes but its text. -/
structure LastRegion (source : String) (nodes : List Node) (init : List Terminal) (m : Lexer)
    (r : Region) (front : List Node) : Prop where
  row : Row (.start source) init m
  closed : ∀ b ∈ init.getLast?, b.kind = .variableEnd ∨ b.kind = .tagEnd
  between : m.mode = .text
  passes : Passes m.rest r
  terminated : r.unterminated = false
  ended : r.rest = []
  items : Phrase.Items init front
  whole : nodes = front ++ textNodes r.text
  other : ∀ s, front.getLast? ≠ some (.text s)
  all : Phrase.Items (init ++ textTerminals r.text) nodes

/-- A row that ends in a tag leads to the last region. -/
theorem lastRegion_of_tag {source : String} {init : List Terminal} {m t : Lexer} {front : List Node}
    (row : Row (.start source) init m) (ends : Ends m t) (items : Phrase.Items init front)
    (closed : ∀ b ∈ init.getLast?, b.kind = .variableEnd ∨ b.kind = .tagEnd) :
    ∃ init m r front', LastRegion source front init m r front' := by
  have between := row.mode_of_items items rfl
  obtain ⟨r, passes, terminated, none, ended⟩ := ends.passes between
  refine ⟨init, m, r, front, row, closed, between, passes, terminated, ended, items, ?_,
    items.getLast?_ne_text closed, ?_⟩
  · rw [none, textNodes, if_pos rfl, List.append_nil]
  · rw [none, textTerminals, if_pos rfl, List.append_nil]
    exact items

/-- A row that ends in text leads into the last region. -/
theorem lastRegion_of_text {source : String} {init : List Terminal} {m t t' : Lexer} {s : String}
    {front : List Node} (row : Row (.start source) init m) (step : Step m ⟨.text, s⟩ t)
    (ends : Ends t t') (items : Phrase.Items init front)
    (all : Phrase.Items (init ++ [⟨.text, s⟩]) (front ++ [.text s])) :
    ∃ init m r front', LastRegion source (front ++ [.text s]) init m r front' := by
  obtain ⟨r, passes, terminated, ended, some, value⟩ := step.passes_of_ends rfl ends
  obtain rfl : s = String.ofList r.text := value
  have closed := row.closed_of_text step rfl
  refine ⟨init, m, r, front, row, closed, row.mode_of_items items rfl, passes, terminated, ended,
    items, ?_, items.getLast?_ne_text closed, ?_⟩
  · rw [textNodes, if_neg some]
  · rw [textTerminals, if_neg some]
    exact all

/-- **A source that is accepted ends in a region of text.** -/
theorem exists_lastRegion {source : String} {nodes : List Node}
    (h : parseTemplate source = .ok nodes) :
    ∃ init m r front, LastRegion source nodes init m r front := by
  obtain ⟨ts, t, t', row, ends, items⟩ := parseTemplate_derives h
  have last := items.last
  cases last with
  | none => exact lastRegion_of_tag row ends items nofun
  | tag closes =>
    refine lastRegion_of_tag row ends items fun b hb => ?_
    rw [List.getLast?_concat, Option.mem_some_iff] at hb
    exact hb ▸ closes
  | text items' =>
    obtain ⟨m, row', final⟩ := row.split
    cases final with
    | cons step rest =>
      cases rest
      exact lastRegion_of_text row' step ends items' items

/-! ### What goes on in a region -/

namespace Lexer

/-- Behind a region nothing more is passed. -/
theorem Passes.again {cs : List Char} {r : Region} (h : Passes cs r)
    (terminated : r.unterminated = false) : Passes r.rest (.stop r.rest) := by
  rcases h.stop with ⟨-, ended | ⟨c, rest, found, known⟩⟩ | ⟨unclosed, -⟩
  · rw [ended]
    exact .nil
  · rw [found]
    exact .tag known
  · rw [terminated] at unclosed
    cases unclosed

/-- A region that ends a source of `n` newlines, with another source behind it: no tag and no
comment begins where they meet. -/
structure Seam (source : String) (n : Nat) (m : Lexer) (r : Region) : Prop where
  between : m.mode = .text
  passes : Passes m.rest r
  ended : r.rest = []
  apart : Apart m.rest source.toList
  first : 1 ≤ m.line
  lines : m.line + newlines m.rest = 1 + n

variable {source : String} {m : Lexer} {r : Region} {n : Nat}

theorem Seam.line (h : Seam source n m r) :
    m.line + newlines (r.passed ++ (region source.toList).passed) =
      1 + newlines (region source.toList).passed + n := by
  have split := h.passes.split
  rw [h.ended, List.append_nil] at split
  have lines := h.lines
  rw [newlines_append, split]
  omega

theorem Seam.whole (h : Seam source n m r) :
    Passes (m.rest ++ source.toList) (r.append (region source.toList)) :=
  h.passes.append h.ended h.apart (passes_region source.toList)

/-- A source is read in a region with no text as it is by itself, and so is a comment in it that is
not closed. -/
theorem Seam.alike (h : Seam source n m r)
    (same : (region source.toList).unterminated = false → r.text = []) :
    Alike n (.start source) (m.withRest (m.rest ++ source.toList)) := by
  refine alike_of_regions (s := .start source) rfl h.between (passes_region source.toList) h.whole
    (fun terminated => ?_) rfl rfl h.first h.line
  show r.text ++ _ = _
  rw [same terminated, List.nil_append]

/-- In a region with text the text is read first, joined to the text of the source; from there on
the source is read as it is by itself. -/
theorem Seam.exists_step (h : Seam source n m r) (some : r.text ≠ [])
    (terminated : (region source.toList).unterminated = false) :
    ∃ s₁, Step (m.withRest (m.rest ++ source.toList))
        ⟨.text, String.ofList (r.text ++ (region source.toList).text)⟩ s₁ ∧
      ((region source.toList).text = [] → Alike n (.start source) s₁) ∧
      ((region source.toList).text ≠ [] → ∃ b₁, Step (.start source)
        ⟨.text, String.ofList (region source.toList).text⟩ b₁ ∧ Alike n b₁ s₁) := by
  have behind := passes_region source.toList
  have some' : (r.append (region source.toList)).text ≠ [] := fun none =>
    some (List.append_eq_nil_iff.mp none).1
  have ahead := Ahead.text h.whole terminated some'
  rw [← h.between] at ahead
  refine ⟨_, step_of_ahead (s := m.withRest _) ahead, fun none => ?_, fun some => ?_⟩
  · refine alike_of_regions (s := .start source) rfl rfl behind (behind.again terminated)
      (fun _ => none.symm) rfl terminated.symm ?_ h.line
    show 1 ≤ m.line + newlines _
    have := h.first
    omega
  · exact ⟨_, step_of_ahead (s := .start source) (.text behind terminated some),
      Shifted.alike ⟨rfl, rfl, h.line⟩⟩

end Lexer

/-! ### Nodes in a row -/

/-- The nodes of two sources in a row: the last text of the first is joined to the text that the
second begins with. -/
def Node.joined (xs ys : List Node) : List Node :=
  match xs.getLast?, ys with
  | some (.text s), .text t :: rest => xs.dropLast ++ .text (s ++ t) :: rest
  | _, _ => xs ++ ys

theorem Node.joined_of_other {xs ys : List Node} (h : ∀ s, xs.getLast? ≠ some (.text s)) :
    joined xs ys = xs ++ ys := by
  unfold joined
  split
  · next found => exact absurd found (h _)
  · rfl

theorem Node.joined_textNodes {front : List Node} (other : ∀ s, front.getLast? ≠ some (.text s))
    (x : List Char) (ys : List Node) :
    joined (front ++ textNodes x) ys = front ++ joined (textNodes x) ys := by
  unfold textNodes
  by_cases none : x = []
  · rw [if_pos none, List.append_nil, joined_of_other other]
    rfl
  · rw [if_neg none]
    unfold joined
    rw [List.getLast?_concat, List.dropLast_concat]
    cases ys with
    | nil => simp
    | cons y ys =>
      cases y with
      | text t => rfl
      | _ => simp

namespace Parse

/-- What is made of a source by itself, and of what is left of a region with text `x` and the
source behind it: the text is joined to the nodes, or the failure is later by `n` lines. -/
def Joins (n : Nat) (x : List Char) :
    Except Halt (Body × Cursor) → Except Halt (Body × Cursor) → Prop
  | .ok ((nodes, _), _), result => ∃ closer c,
    result = .ok ((Node.joined (textNodes x) nodes, closer), c)
  | .error halt, result => ∃ halt', result = .error halt' ∧ halt'.failure = halt.failure.later n

theorem Agrees.joins {n room : Nat} {sim : Lexer → Lexer → Prop}
    {result result' : Except Halt (Body × Cursor)} (x : List Char) (ys zs : List Node)
    (h : Agrees 0 n sim room modeAfterBody (SameBody []) result result')
    (same : ∀ nodes closer c, result = .ok ((nodes, closer), c) →
      Node.joined (textNodes x) (ys ++ nodes) = zs ++ nodes) :
    Joins n x (prepended ys result) (prepended zs result') := by
  cases h with
  | @ok made made' s s' both there =>
    obtain ⟨nodes, closer⟩ := made
    obtain ⟨nodes', closer'⟩ := made'
    obtain ⟨rfl, -⟩ := both
    refine ⟨closer', .ofLexer s', ?_⟩
    rw [same _ closer _ rfl]
    rfl
  | @error halt halt' m failure shift =>
    obtain rfl := shift (Nat.zero_le _)
    exact ⟨halt', rfl, failure⟩

/-- Bodies that are alike, with turns enough in both runs. -/
theorem alike_agrees {n turns turns' : Nat} {s s' : Lexer} (h : Alike n s s')
    (between : s.mode = .text) (enough : s.size < turns) (enough' : s'.size < turns') :
    Agrees 0 n (Alike n) (s.size + 1) modeAfterBody (SameBody []) (bodyUpTo turns [] (.ofLexer s))
      (bodyUpTo turns' [] (.ofLexer s')) := by
  have lock := alike_lockstep 0 n
  have same := size_eq_of_sim lock h
  have at' : At (Alike n) (s.size + 1) .text s s' :=
    between ▸ at_of_sim lock h (Nat.lt_succ_self _)
  exact bodyUpTo_agrees lock enough (same ▸ enough') [] nofun at'

/-- Nodes begin with text only where a region does. -/
theorem first_ne_text {source : String} {nodes : List Node} {closer : Option Token} {c : Cursor}
    (h : body [] (.ofLexer (.start source)) = .ok ((nodes, closer), c))
    (none : (region source.toList).text = []) (s : String) (rest : List Node) :
    nodes ≠ .text s :: rest := by
  rintro rfl
  have accepted : parseTemplate source = .ok (.text s :: rest) := by
    rw [parseTemplate, h]
  obtain ⟨ts, t, t', row, -, items⟩ := parseTemplate_derives accepted
  obtain ⟨us, rfl⟩ := items.first_text
  cases row with
  | cons step _ =>
    obtain ⟨skipped, written, ahead, -⟩ := step.ahead
    obtain ⟨r, passes, -, some, -⟩ := ahead.textRegion rfl
    have same : region source.toList = r := passes.eq
    rw [same] at none
    exact some none

section

variable {source : String} {m : Lexer} {r : Region} {n k : Nat}

/-- Where nothing is joined, a source in a region is read as it is by itself. -/
theorem joins_of_alike (alike : Alike n (.start source) (m.withRest (m.rest ++ source.toList)))
    (enough : (m.withRest (m.rest ++ source.toList)).size ≤ k)
    (none : ∀ nodes closer c, body [] (.ofLexer (.start source)) = .ok ((nodes, closer), c) →
      r.text = []) :
    Joins n r.text (body [] (.ofLexer (.start source)))
      (bodyUpTo (k + 1) [] (.ofLexer (m.withRest (m.rest ++ source.toList)))) := by
  have agrees := alike_agrees alike rfl (Nat.lt_succ_self _) (Nat.lt_succ_of_le enough)
  have joins := agrees.joins r.text [] [] fun nodes closer c made => by
    rw [none nodes closer c made]
    rfl
  rwa [prepended_nil, prepended_nil] at joins

/-- A source that begins with a comment that is not closed makes no nodes. -/
theorem body_of_unterminated (unterminated : (region source.toList).unterminated = true) :
    ∃ halt, body [] (.ofLexer (.start source)) = .error halt := by
  have failed := next_of_ahead (s := .start source)
    (.unterminated (passes_region source.toList) unterminated)
  have halted := read_ofLexer (.start source)
  rw [failed] at halted
  have run : body [] (.ofLexer (.start source)) = (read (.ofLexer (.start source)) >>= _) := rfl
  rw [run, halted]
  exact ⟨_, rfl⟩

/-- Behind text a source that does not begin with text makes the same nodes. -/
theorem joins_of_text {s₁ : Lexer} (alike : Alike n (.start source) s₁) (some : r.text ≠ [])
    (none : (region source.toList).text = []) (enough : s₁.size < k) :
    Joins n r.text (body [] (.ofLexer (.start source)))
      (prepended [.text (String.ofList r.text)] (bodyUpTo k [] (.ofLexer s₁))) := by
  have agrees : Agrees 0 n (Alike n) _ modeAfterBody (SameBody [])
      (body [] (.ofLexer (.start source))) (bodyUpTo k [] (.ofLexer s₁)) :=
    alike_agrees alike rfl (Nat.lt_succ_self _) enough
  have joins := agrees.joins r.text [] [.text (String.ofList r.text)] fun nodes closer c made => by
    rw [textNodes, if_neg some]
    cases nodes with
    | nil => rfl
    | cons node nodes =>
      cases node with
      | text t => exact absurd rfl (first_ne_text made none t nodes)
      | _ => rfl
  rwa [prepended_nil] at joins

/-- Behind text a source that begins with text makes the same nodes, but for the first one. -/
theorem joins_of_texts {s₁ b₁ : Lexer} {y : List Char}
    (first : Step (.start source) ⟨.text, String.ofList y⟩ b₁) (alike : Alike n b₁ s₁)
    (some : r.text ≠ []) (enough : s₁.size < k) :
    Joins n r.text (body [] (.ofLexer (.start source)))
      (prepended [.text (String.ofList (r.text ++ y))] (bodyUpTo k [] (.ofLexer s₁))) := by
  have size := size_of_step first
  have itself : body [] (.ofLexer (.start source)) =
      bodyUpTo ((Lexer.start source).size + 1) [] (.ofLexer (.start source)) := rfl
  rw [itself, bodyUpTo_text first]
  have agrees : Agrees 0 n (Alike n) _ modeAfterBody (SameBody [])
      (bodyUpTo (Lexer.start source).size [] (.ofLexer b₁)) (bodyUpTo k [] (.ofLexer s₁)) :=
    alike_agrees alike first.mode (by omega) enough
  refine agrees.joins r.text _ _ fun nodes closer c made => ?_
  rw [textNodes, if_neg some, String.ofList_append]
  rfl

/-- **A source goes on in a region.** -/
theorem body_joins (seam : Seam source n m r)
    (enough : (m.withRest (m.rest ++ source.toList)).size ≤ k) :
    Joins n r.text (body [] (.ofLexer (.start source)))
      (bodyUpTo (k + 1) [] (.ofLexer (m.withRest (m.rest ++ source.toList)))) := by
  cases terminated : (region source.toList).unterminated with
  | true =>
    have alike := seam.alike fun closed => absurd closed (by rw [terminated]; decide)
    obtain ⟨halt, failed⟩ := body_of_unterminated terminated
    exact joins_of_alike alike enough fun nodes closer c made => by
      rw [failed] at made
      cases made
  | false =>
    by_cases some : r.text = []
    · exact joins_of_alike (seam.alike fun _ => some) enough fun _ _ _ _ => some
    · obtain ⟨s₁, step, alike, alike'⟩ := seam.exists_step some terminated
      have size := size_of_step step
      rw [bodyUpTo_text step]
      by_cases none : (region source.toList).text = []
      · rw [none, List.append_nil]
        exact joins_of_text (alike none) some none (by omega)
      · obtain ⟨b₁, first, alike⟩ := alike' none
        exact joins_of_texts first alike some (by omega)

end

end Parse

/-- A source behind another one: the tokens up to the last region of the first are read again, and
the second goes on in that region. -/
theorem LastRegion.append {a : String} {nodes front : List Node} {init : List Terminal} {m : Lexer}
    {r : Region} (last : LastRegion a nodes init m r front) {b : String}
    (seam : Apart a.toList b.toList) :
    Row (.start (a ++ b)) init (m.withRest (m.rest ++ b.toList)) ∧
      Seam b (newlines a.toList) m r := by
  obtain ⟨passed, -, moves⟩ := last.row.moves
  have split : a.toList = passed ++ m.rest := moves.rest
  have line : m.line = 1 + newlines passed := moves.line
  have row := last.row.anywhere moves.rest last.closed (m.rest ++ b.toList)
  have same : (Lexer.start a).withRest (passed ++ (m.rest ++ b.toList)) = .start (a ++ b) := by
    rw [← List.append_assoc, ← split, ← String.toList_append]
    rfl
  rw [same] at row
  rw [split] at seam
  refine ⟨row, last.between, last.passes, last.ended, seam.right, ?_, ?_⟩
  · rw [line]
    exact Nat.le_add_right _ _
  · rw [split, newlines_append, line]
    omega

/-- **A source behind one that is accepted** is accepted and its nodes follow, or it fails as it
does by itself. -/
theorem parseTemplate_append {a b : String} {na : List Node} (accepted : parseTemplate a = .ok na)
    (seam : Apart a.toList b.toList) :
    (∀ nb, parseTemplate b = .ok nb → parseTemplate (a ++ b) = .ok (Node.joined na nb)) ∧
    ∀ failure, parseTemplate b = .error failure →
      parseTemplate (a ++ b) = .error (failure.later (newlines a.toList)) := by
  obtain ⟨init, m, r, front, last⟩ := exists_lastRegion accepted
  obtain ⟨row, seam⟩ := last.append seam
  obtain ⟨k, enough, made⟩ :=
    Parse.bodyUpTo_items _ [] init front _ _ nofun last.items row (Nat.lt_succ_self _)
  have whole : Parse.body [] (.ofLexer (.start (a ++ b))) = _ := made
  have joins := Parse.body_joins seam enough
  unfold parseTemplate
  rw [whole]
  generalize Parse.body [] (.ofLexer (.start b)) = result at joins ⊢
  cases result with
  | ok made =>
    obtain ⟨⟨nodes, closer⟩, c⟩ := made
    obtain ⟨closer', c', found⟩ := joins
    refine ⟨fun nb same => ?_, fun failure same => nomatch same⟩
    obtain rfl := Except.ok.inj same
    rw [found, last.whole, Node.joined_textNodes last.other]
    rfl
  | error halt =>
    obtain ⟨halt', found, failure⟩ := joins
    refine ⟨fun nb same => (nomatch same), fun failure' same => ?_⟩
    obtain rfl := Except.error.inj same
    rw [found]
    exact congrArg Except.error failure

/-! ### Bodies between tags -/

namespace Phrase

/-- An opening tag, what it makes of a body, and the tag that closes the body. -/
inductive Encloses : List Terminal → (List Node → Node) → List Terminal → Prop
  | frame {k closer : Keyword} {ts : List Terminal} {make : List Node → Node}
    (first : Frame k closer ts make) : Encloses (tag k ts) make (tag closer [])
  | branch {ts : List Terminal} {c : Stencil.Condition} (first : Condition ts c) :
    Encloses (tag .ifTag ts) (fun body => .choice c body (.otherwise [])) (tag .endifTag [])

/-- A body between its tags is one node. -/
theorem Encloses.items {opening closing bs : List Terminal} {make : List Node → Node}
    {body : List Node} (h : Encloses opening make closing) (inner : Items bs body) :
    Items (opening ++ (bs ++ closing)) [make body] := by
  cases h with
  | @frame k closer ts _ first =>
    have whole := Items.frame first inner .nil
    rwa [List.append_nil] at whole
  | @branch ts c first =>
    have whole := Items.choice first inner .none .nil
    rwa [List.append_nil] at whole

/-- The body is the first one of the node. -/
theorem Encloses.childBodies {opening closing : List Terminal} {make : List Node → Node}
    (h : Encloses opening make closing) (body : List Node) :
    (make body).childBodies.head? = some body := by
  cases h with
  | frame first => cases first <;> rfl
  | branch first => rfl

/-- Both tags begin and end in the same way. -/
theorem Encloses.ends {opening closing : List Terminal} {make : List Node → Node}
    (h : Encloses opening make closing) :
    (∃ init, opening = init ++ [.fixed .tagEnd]) ∧
      ∃ inside, closing = .fixed .tagStart :: (inside ++ [.fixed .tagEnd]) := by
  cases h with
  | @frame k closer ts _ _ => exact ⟨⟨.fixed .tagStart :: .word k :: ts, rfl⟩, [.word closer], rfl⟩
  | @branch ts _ _ =>
    exact ⟨⟨.fixed .tagStart :: .word .ifTag :: ts, rfl⟩, [.word .endifTag], rfl⟩

end Phrase

namespace Lexer

/-- A source that is made of some tokens with nothing behind them. -/
def Written (source : String) (ts : List Terminal) : Prop :=
  ∃ t, Row (.start source) ts t ∧ t.rest = []

/-- In front of a tag that is read first there is no text. -/
theorem Step.region_of_tag {s s' : Lexer} {a : Terminal} (h : Step s a s')
    (tag : a.kind = .tagStart) :
    (region s.rest).unterminated = false ∧ (region s.rest).text = [] := by
  obtain ⟨skipped, written, ahead, -⟩ := h.ahead
  obtain ⟨r, passes, closed, none⟩ := ahead.tagRegion tag
  rw [passes.eq]
  exact ⟨closed, none⟩

end Lexer

/-- A closing tag behind a source that is accepted: the tokens of both, and the end. -/
theorem exists_row_closed {b c : String} {body : List Node} {inside : List Terminal}
    (accepted : parseTemplate b = .ok body) (seam : b.toList.getLast? ≠ some '\x7b')
    (closing : Written c (.fixed .tagStart :: (inside ++ [.fixed .tagEnd]))) :
    ∃ bs t t', Phrase.Items bs body ∧ Ends t t' ∧
      Row (.start (b ++ c)) (bs ++ .fixed .tagStart :: (inside ++ [.fixed .tagEnd])) t := by
  obtain ⟨init, m, r, front, last⟩ := exists_lastRegion accepted
  obtain ⟨row, seam⟩ := last.append (apart_of_getLast? seam c.toList)
  obtain ⟨v, written, ended⟩ := closing
  have mode : v.mode = .text := @Row.mode_of_last _ _ (.fixed .tagStart :: inside) _ written
  have ends := ends_of_rest mode ended
  have tag : (region c.toList).unterminated = false ∧ (region c.toList).text = [] := by
    cases written with
    | cons step _ => exact step.region_of_tag rfl
  have all := last.all
  by_cases none : r.text = []
  · obtain ⟨t, row', both⟩ := (seam.alike fun _ => none).row written
    obtain ⟨t', ends'⟩ := both.ends ends
    rw [none, textTerminals, if_pos rfl, List.append_nil] at all
    exact ⟨init, t, t', all, ends', row.append row'⟩
  · obtain ⟨s₁, step, alike, -⟩ := seam.exists_step none tag.1
    obtain ⟨t, row', both⟩ := (alike tag.2).row written
    obtain ⟨t', ends'⟩ := both.ends ends
    rw [textTerminals, if_neg none] at all
    rw [tag.2, List.append_nil] at step
    refine ⟨_, t, t', all, ends', ?_⟩
    rw [List.append_assoc]
    exact row.append (.cons step row')

/-- **A source between an opening tag and the tag that closes it** is the body of one node. -/
theorem parseTemplate_enclosed {o b c : String} {opening closing : List Terminal}
    {make : List Node → Node} {body : List Node} (h : Phrase.Encloses opening make closing)
    (front : Written o opening) (back : Written c closing) (accepted : parseTemplate b = .ok body)
    (seam : b.toList.getLast? ≠ some '\x7b') : parseTemplate (o ++ b ++ c) = .ok [make body] := by
  obtain ⟨⟨init, first⟩, inside, last⟩ := h.ends
  obtain ⟨s, row, ended⟩ := front
  rw [last] at back
  obtain ⟨bs, t, t', items, ends, row'⟩ := exists_row_closed accepted seam back
  have whole : o.toList = o.toList ++ s.rest := by rw [ended, List.append_nil]
  have closed : ∀ b ∈ opening.getLast?, b.kind = .variableEnd ∨ b.kind = .tagEnd := by
    rw [first]
    intro b hb
    rw [List.getLast?_concat, Option.mem_some_iff] at hb
    exact hb ▸ .inr rfl
  have again := row.anywhere whole closed (b ++ c).toList
  have same : (Lexer.start o).withRest (o.toList ++ (b ++ c).toList) = .start (o ++ b ++ c) := by
    rw [← String.toList_append, ← String.append_assoc]
    rfl
  rw [same] at again
  have mode : s.mode = .text := by
    rw [first] at row
    exact row.mode_of_last
  obtain ⟨passed, -, moves⟩ := row.moves
  have shifted : Shifted (newlines passed) (.start (b ++ c)) (s.withRest (b ++ c).toList) :=
    ⟨rfl, mode, moves.line⟩
  obtain ⟨u, row'', both⟩ := shifted.alike.row row'
  obtain ⟨u', ends'⟩ := both.ends ends
  rw [← last] at row''
  exact parseTemplate_of_items (again.append row'') ends' (h.items items)

/-- **Reading is compositional.** Behind a source that is accepted and does not end in a brace, another
one that is accepted adds its nodes. One that is rejected fails as it does by itself, later by the
lines in front of it, unless a brace at the end of the first source begins a tag or a comment with it.
Between the tags of a block, a loop, a macro or a choice a source that is accepted and does not end in
a brace is the body of one node. -/
theorem parse_compositional (a : String) (na : List Node) (accepted : parseTemplate a = .ok na) :
    (a.toList.getLast? ≠ some '\x7b' → ∀ b nb, parseTemplate b = .ok nb →
      parseTemplate (a ++ b) = .ok (Node.joined na nb)) ∧
    (∀ b e, parseTemplate b = .error (.error e) → Apart a.toList b.toList → ∃ e',
      parseTemplate (a ++ b) = .error (.error e') ∧ e.OnlyLater (newlines a.toList) e') ∧
    (a.toList.getLast? ≠ some '\x7b' → ∀ opening make closing o c,
      Phrase.Encloses opening make closing → Written o opening → Written c closing →
        parseTemplate (o ++ a ++ c) = .ok [make na] ∧ (make na).childBodies.head? = some na) := by
  refine ⟨fun seam b => (parseTemplate_append accepted (apart_of_getLast? seam _)).1,
    fun b e rejected seam => ?_, fun seam opening make closing o c encloses front back =>
      ⟨parseTemplate_enclosed encloses front back accepted seam, encloses.childBodies na⟩⟩
  obtain ⟨e', later, only⟩ := Failure.onlyLater_later (newlines a.toList) e
  rw [(parseTemplate_append accepted seam).2 _ rejected]
  exact ⟨e', congrArg Except.error later, only⟩

/-- Two lines of text in front of text, in front of a tag that is not closed, and in a block. -/
theorem parse_compositional_lines :
    parseTemplate "a\nb" = .ok [.text "a\nb"] ∧
      parseTemplate ("a\nb" ++ "c") = .ok [.text "a\nbc"] ∧
      (∃ e, parseTemplate ("a\nb" ++ "\x7b% if") = .error (.error e) ∧
        (TemplateError.mk .unclosedTag (some 1) none).OnlyLater 1 e) ∧
      parseTemplate ("\x7b% block x %\x7d" ++ "a\nb" ++ "\x7b% endblock %\x7d") =
        .ok [.block "x" [.text "a\nb"]] := by
  have accepted : parseTemplate "a\nb" = .ok [.text "a\nb"] := by decide +kernel
  have behind : parseTemplate "c" = .ok [.text "c"] := by decide +kernel
  have rejected : parseTemplate "\x7b% if" = .error (.error ⟨.unclosedTag, some 1, none⟩) := by
    decide +kernel
  have whole := parse_compositional "a\nb" _ accepted
  have front : Written "\x7b% block x %\x7d" (Phrase.tag .blockTag [.identifier "x"]) :=
    ⟨_, .cons ⟨by decide, _, rfl⟩ (.cons ⟨by decide, _, rfl⟩ (.cons ⟨by decide, _, rfl⟩
      (.cons ⟨by decide, _, rfl⟩ .nil))), rfl⟩
  have back : Written "\x7b% endblock %\x7d" (Phrase.tag .endblockTag []) :=
    ⟨_, .cons ⟨by decide, _, rfl⟩ (.cons ⟨by decide, _, rfl⟩ (.cons ⟨by decide, _, rfl⟩ .nil)), rfl⟩
  have seam : "a\nb".toList.getLast? ≠ some '\x7b' := by decide
  exact ⟨accepted, whole.1 seam _ _ behind, whole.2.1 _ _ rejected (apart_of_getLast? seam _),
    (whole.2.2 seam _ _ _ _ _ (.frame .block) front back).1⟩

/-- Behind a brace a source may fail in another way than by itself: the brace begins a tag with it. -/
theorem not_compositional_behind_brace :
    ¬∀ (a b : String) (na : List Node) (e : TemplateError), parseTemplate a = .ok na →
      parseTemplate b = .error (.error e) → ∃ e', parseTemplate (a ++ b) = .error (.error e') ∧
        e.OnlyLater (newlines a.toList) e' := by
  intro h
  have accepted : parseTemplate "\x7b" = .ok [.text "\x7b"] := by decide +kernel
  have rejected : parseTemplate "\x7b% foo" =
      .error (.error ⟨.unexpectedToken ⟨.identifier, "foo", 1⟩, some 1, none⟩) := by decide +kernel
  have whole : parseTemplate ("\x7b" ++ "\x7b% foo") =
      .error (.error ⟨.wanted .primary ⟨.operator, "%", 1⟩, some 1, none⟩) := by decide +kernel
  obtain ⟨e', found, only⟩ := h _ _ _ _ accepted rejected
  rw [whole, Except.error.injEq, Failure.error.injEq] at found
  subst found
  have code := only.code
  revert code
  decide

end Stencil
