import IconMarkup.Config.Settings
import IconMarkup.Icon.Fragment
import IconMarkup.Tree.Render

/-!
# From documents to markup

`process` replaces the shortcodes of a document by icons and writes it; `collect` lists the same
shortcodes in document order without changing anything.
-/

namespace IconMarkup

open IconMarkup.Config

/-- A shortcode that `process` would replace. -/
structure FoundIcon where
  /-- The shortcode as written. -/
  shortcode : String
  /-- The family of the icon. -/
  style : Icon.Style
  /-- The name of the icon. -/
  icon : String
  /-- The class list of its element. -/
  classes : List String
  deriving DecidableEq, Repr

/-- Replaces the shortcodes of a document as the settings say. Gives the document and the number of
texts that had one. -/
def Document.withIcons (document : Document) (settings : Settings) : Document × Nat :=
  Icon.replaceIn settings.icons settings.render.skipElements document

/-- The markup of a document with icons in place of its shortcodes. -/
def process (document : Document) (settings : Settings) : String :=
  (document.withIcons settings).1.render

/-- The shortcodes of one text. -/
def foundIn (classes : Icon.Classes) (text : String) : List FoundIcon :=
  (Icon.scan text).map fun shortcode =>
    ⟨shortcode.display, shortcode.style, shortcode.icon,
      classes.of shortcode.style shortcode.icon⟩

/-- The shortcodes that `process` would replace, in document order. -/
def collect (document : Document) (settings : Settings) : List FoundIcon :=
  (document.root.offeredTexts settings.render.skipElements).flatMap (foundIn settings.icons)

end IconMarkup
