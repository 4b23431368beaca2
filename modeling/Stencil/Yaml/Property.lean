/-
# Anchors, tags and directives of YAML

A node may have a name to refer to it by, an anchor, and a tag that says what it
is. Tags are written in full between angle brackets, or by a handle and a suffix.
Directives stand in front of a document; one gives the version, others give
handles for tags.

Key definitions: `Yaml.anchor?`, `Yaml.tag?`, `Yaml.directive?`.
-/
import Stencil.Text.Hex
import Stencil.Yaml.Place
import Stencil.Yaml.Token

namespace Stencil.Yaml

/-- The characters of anchors, handles and the names of directives. -/
def isNameChar (c : Char) : Bool :=
  c.isAlphanum || c = '_' || c = '-'

/-- The characters of a tag besides those of names. -/
def tagMarks : List Char :=
  [';', '/', '?', ':', '@', '&', '=', '+', '$', ',', '.', '!', '~', '*', '\'', '(', ')', '[', ']', '%']

/-- The characters that may follow an anchor without a gap. -/
def anchorEnds : List Char := ['?', ':', ',', ']', '\x7d', '%', '@', '\x60']

/-- The name of an anchor after its sign, and the place after it. -/
def anchor? (p : Place) : Option (List Char × Place) :=
  let (name, q) := p.next.takeChars isNameChar
  if name.isEmpty || !(atGap q.rest || q.rest.head?.any anchorEnds.contains) then none
  else some (name, q)

/-- A text in which percent signs with two hexadecimal digits stand for bytes; the bytes make up
characters. -/
def decodeBytes? (cs : List Char) : Option (List Char) := do
  let bytes ← go cs
  let s ← String.fromUTF8? (ByteArray.mk bytes.toArray)
  pure s.toList
where
  go : List Char → Option (List UInt8)
    | [] => some []
    | '%' :: a :: b :: cs => do
      let n ← Text.readHex? [a, b]
      let more ← go cs
      pure (UInt8.ofNat n :: more)
    | c :: cs => do
      if c = '%' then none
      else
        let more ← go cs
        pure (String.utf8EncodeChar c ++ more)

/-- The characters of a tag at a place. -/
def tagChars (p : Place) : List Char × Place :=
  p.takeChars fun c => isNameChar c || tagMarks.contains c

/-- A handle at a place: an exclamation mark, perhaps with a name and another mark after it. -/
def handle? (p : Place) : Option (List Char × Place) :=
  match p.rest with
  | '!' :: _ =>
    let (name, q) := p.next.takeChars isNameChar
    match q.rest with
    | '!' :: _ => some ('!' :: name ++ ['!'], q.next)
    | _ => some ('!' :: name, q)
  | _ => none

/-- A tag in full, after its exclamation mark. -/
def fullTag? (p : Place) : Option (Token × Place) :=
  let (suffix, q) := tagChars p.next
  if suffix.isEmpty || q.rest.head? ≠ some '>' then none
  else (decodeBytes? suffix).map fun s => (.tag [] s, q.next)

/-- A tag by handle and suffix. A mark alone is a tag of its own. -/
def shortTag? (p : Place) : Option (Token × Place) :=
  match handle? p with
  | none => none
  | some (handle, q) =>
    let (suffix, r) := tagChars q
    if 1 < handle.length && handle.getLast? = some '!' then
      if suffix.isEmpty then none
      else (decodeBytes? suffix).map fun s => (.tag handle s, r)
    else
      (decodeBytes? suffix).map fun s =>
        let whole := handle.drop 1 ++ s
        (if whole.isEmpty then .tag [] ['!'] else .tag ['!'] whole, r)

/-- The tag at a place; a gap has to follow. -/
def tag? (p : Place) : Option (Token × Place) :=
  match if p.next.rest.head? = some '<' then fullTag? p.next else shortTag? p with
  | none => none
  | some (t, q) => if atGap q.rest then some (t, q) else none

/-- A number of a version, of at most nine digits. -/
def versionNumber? (p : Place) : Option (Nat × Place) :=
  let (ds, q) := p.takeChars Char.isDigit
  if ds.isEmpty || 9 < ds.length then none
  else some (ds.foldl (fun n d => 10 * n + (d.toNat - 0x30)) 0, q)

/-- The version in a directive. -/
def version? (p : Place) : Option (Token × Place) := do
  let (major, q) ← versionNumber? p
  if q.rest.head? = some '.' then
    let (minor, r) ← versionNumber? q.next
    pure (.version major minor, r)
  else none

/-- The handle and what it is short for in a directive. -/
def shortForm? (p : Place) : Option (Token × Place) := do
  let (handle, q) ← handle? p
  if handle ≠ ['!'] && handle.getLast? ≠ some '!' then none
  else if !q.rest.head?.any isBlank then none
  else
    let (expansion, r) := tagChars q.skipBlanks
    if expansion.isEmpty || !atGap r.rest then none
    else
      let s ← decodeBytes? expansion
      pure (.shortForm handle s, r)

/-- The directive at a place, and the place after its line. -/
def directive? (p : Place) : Option (Token × Place) := do
  let (name, q) := p.next.takeChars isNameChar
  if !atGap q.rest then none
  else
    let (t, r) ←
      if name = "YAML".toList then version? q.skipBlanks
      else if name = "TAG".toList then shortForm? q.skipBlanks
      else none
    let r := r.skipComment
    if r.rest.isEmpty || r.rest.head?.any isBreak then pure (t, r.next) else none

end Stencil.Yaml
