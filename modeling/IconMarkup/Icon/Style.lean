/-!
# Icon styles

The three families of icons and the keyword that names each in a shortcode.
-/

namespace IconMarkup.Icon

/-- A family of icons. -/
inductive Style where
  | solid
  | regular
  | brands
  deriving DecidableEq, Repr

namespace Style

/-- All styles, in their fixed order. -/
def all : List Style := [.solid, .regular, .brands]

/-- The word that names the style. -/
def keyword : Style → String
  | .solid => "solid"
  | .regular => "regular"
  | .brands => "brands"

/-- The style named by a word, spelled exactly so. -/
def ofKeyword? (word : String) : Option Style :=
  all.find? (·.keyword = word)

end Style

end IconMarkup.Icon
