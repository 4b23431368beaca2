/-
# The filters that every template has

Texts may have halves of characters in them, which most filters see only as
places in the text.

Key definitions: `Filter.builtins`.
-/
import Stencil.Filter.Date
import Stencil.Filter.Directive
import Stencil.Filter.Markup
import Stencil.Filter.Number
import Stencil.Filter.Sequence
import Stencil.Filter.Text

namespace Stencil.Filter

def builtins (world : Surroundings) : Table Filter := [
  ("upper", onPoints upper),
  ("lower", onPoints lower),
  ("length", onPoints length),
  ("slice", slice),
  ("join", join),
  ("date", date world),
  ("default", default),
  ("escape", escape),
  ("trim", onPoints trim),
  ("reverse", onPoints reverse),
  ("first", onPoints first),
  ("last", onPoints last),
  ("format", format),
  ("replace", onPoints replace),
  ("abs", abs),
  ("round", round),
  ("number_format", numberFormat),
  ("url_encode", urlEncode),
  ("json_encode", onAllPoints jsonEncode),
  ("capitalize", onPoints capitalize),
  ("title", onPoints title),
  ("striptags", striptags),
  ("nl2br", onPoints nl2br),
  ("split", split),
  ("keys", keys),
  ("values", values)]

end Stencil.Filter
