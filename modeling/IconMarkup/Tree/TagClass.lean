/-!
# Classes of elements

Void elements have neither content nor an end tag; the bodies of raw text elements are not markup.
-/

namespace IconMarkup

/-- Whether elements of this tag have neither content nor an end tag. -/
def isVoidTag (tag : String) : Bool :=
  ["area", "base", "br", "col", "embed", "hr", "img", "input", "link", "meta", "source", "track",
    "wbr"].contains tag

/-- Whether the body of an element of this tag is taken as it is. -/
def isRawTextTag (tag : String) : Bool :=
  ["script", "style"].contains tag

end IconMarkup
