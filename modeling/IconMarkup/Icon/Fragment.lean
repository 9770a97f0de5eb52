import IconMarkup.Icon.Classes
import IconMarkup.Icon.Shortcode
import IconMarkup.Tree.Walk

/-!
# Icons in place of shortcodes

`fragment` cuts a text at its shortcodes and puts an icon element in the place of each; the pieces
between them that are not empty stay text. `replace?` does so for the shortcodes that the text
really has, and answers `none` when there are none, which makes it a replacer for a tree.
-/

namespace IconMarkup.Icon

/-- The element that shows an icon. -/
def element (classes : Classes) (style : Style) (icon : String) : Element :=
  .leaf "i" [("class", String.intercalate " " (classes.of style icon)), ("aria-hidden", "true")]

/-- The piece of a text between two byte positions, unless it is empty. -/
def gap (text : List Char) (start stop : Nat) : List Node :=
  if start < stop then [.text (String.ofList (Text.sliceBytes start stop text))] else []

/-- The nodes for the shortcodes of a text from a position on. -/
def fragmentFrom (classes : Classes) (text : List Char) (cursor : Nat) :
    List Shortcode → List Node
  | [] => gap text cursor (Text.byteLength text)
  | shortcode :: rest =>
    gap text cursor shortcode.start ++
      (element classes shortcode.style shortcode.icon).toNode ::
        fragmentFrom classes text shortcode.stop rest

/-- The nodes that stand for a text with these shortcodes; the text itself if there are none. -/
def fragment (classes : Classes) (text : String) (shortcodes : List Shortcode) : List Node :=
  if shortcodes.isEmpty then [.text text]
  else fragmentFrom classes text.toList 0 shortcodes

/-- The nodes that replace a text, `none` if it has no shortcode. -/
def replace? (classes : Classes) (text : String) : Option (List Node) :=
  match scan text with
  | [] => none
  | shortcodes => some (fragment classes text shortcodes)

/-- Replaces the shortcodes in the running text of a document, outside skipped elements. Gives the
document and the number of texts that had one. -/
def replaceIn (classes : Classes) (skip : List String) (document : Document) : Document × Nat :=
  let (root, replaced, _) :=
    document.root.splice skip (fun (_ : Unit) text => (replace? classes text, ())) ()
  (⟨root⟩, replaced)

end IconMarkup.Icon
