import IconMarkup.Config.Diagnostic
import IconMarkup.Icon.Classes
import IconMarkup.Markdown.Options
import IconMarkup.Text.Blank

/-!
# Settings

The settings of the program: how icon elements are classed, which elements are never rewritten and
which Markdown extensions are read. `Settings.diagnose` lists their faults; settings without any
keep class lists intact. Values from the command line replace those of the settings as wholes.
-/

namespace IconMarkup.Config

/-- The settings for reading and changing documents. -/
structure RenderSettings where
  /-- The tags whose subtrees are left alone. -/
  skipElements : List String := ["script", "style"]
  /-- The Markdown extensions. -/
  markdown : Markdown.Options := {}
  deriving DecidableEq, Repr

/-- All settings. -/
structure Settings where
  /-- The classes of icon elements. -/
  icons : Icon.Classes := {}
  /-- How documents are read and rewritten. -/
  render : RenderSettings := {}
  deriving DecidableEq, Repr

/-- The path of the setting for the first part of class names. -/
def classPrefixField : String := "icons.class_prefix"

/-- The path of the setting for further classes. -/
def additionalClassesField : String := "icons.additional_classes"

/-- The path of the setting for skipped elements. -/
def skipElementsField : String := "render.skip_elements"

/-- Whether a text has a white space character in it. -/
def hasBlank (s : String) : Bool :=
  s.toList.any Text.isBlank

/-- What is wrong with the first part of class names. -/
def diagnosePrefix (classPrefix : String) : List Diagnostic :=
  if classPrefix.isEmpty then
    [⟨classPrefixField, "must not be empty",
      some "use \"fa\" for Font Awesome 6 class names"⟩]
  else if hasBlank classPrefix then
    [⟨classPrefixField, "`" ++ classPrefix ++ "` contains whitespace", none⟩]
  else []

/-- What is wrong with a further class. -/
def diagnoseClass (name : String) : List Diagnostic :=
  if name.isEmpty then
    [⟨additionalClassesField, "contains an empty class name", none⟩]
  else if hasBlank name then
    [⟨additionalClassesField, "`" ++ name ++ "` contains whitespace",
      some "list each class as a separate entry"⟩]
  else []

/-- What is wrong with the classes of icon elements. -/
def diagnoseClasses (classes : Icon.Classes) : List Diagnostic :=
  diagnosePrefix classes.classPrefix ++ classes.additional.flatMap diagnoseClass

namespace RenderSettings

/-- Strips and lower-cases the skipped tags, so that they match the tags of trees. -/
def normalize (settings : RenderSettings) : RenderSettings :=
  { settings with skipElements := settings.skipElements.map fun tag => (Text.trim tag).toLower }

/-- What is wrong with the settings for documents. -/
def diagnose (settings : RenderSettings) : List Diagnostic :=
  if settings.skipElements.any fun tag => (Text.trim tag).isEmpty then
    [⟨skipElementsField, "contains an empty tag name", none⟩]
  else []

end RenderSettings

namespace Settings

/-- The settings with values given on the command line in place of their own. -/
def override (settings : Settings) (classPrefix : Option String)
    (additional : Option (List String)) : Settings :=
  { settings with
    icons := {
      classPrefix := classPrefix.getD settings.icons.classPrefix
      additional := additional.getD settings.icons.additional } }

/-- All faults of the settings. -/
def diagnose (settings : Settings) : List Diagnostic :=
  diagnoseClasses settings.icons ++ settings.render.diagnose

end Settings

end IconMarkup.Config
