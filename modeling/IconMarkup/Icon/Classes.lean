import IconMarkup.Icon.Style

/-!
# Class names of icons

How the class list of an icon element is made: one class for the style, one for the icon, both
with a common first part, and any number of further classes.
-/

namespace IconMarkup.Icon

/-- The settings for the class list of icon elements. -/
structure Classes where
  /-- The first part of the classes for the style and the icon. -/
  classPrefix : String := "fa"
  /-- Further classes, after the first two. -/
  additional : List String := []
  deriving DecidableEq, Repr

/-- The class list of one icon. -/
def Classes.of (classes : Classes) (style : Style) (icon : String) : List String :=
  (classes.classPrefix ++ "-" ++ style.keyword) :: (classes.classPrefix ++ "-" ++ icon) ::
    classes.additional

end IconMarkup.Icon
