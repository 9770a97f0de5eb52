import Mathlib.Data.List.Flatten
import IconMarkup.Proofs.Markdown.Content

/-!
# The alternative text of images

What stands between the start and the finish of an image becomes its alternative text. It does so
when the image is finished, and an image in it has been finished before: its text has become an
attribute by then and is no text of the outer image any more. So the alternative text consists of
the texts outside other images (`foldl_take_image`), and it is complete exactly if no text stands
inside one.
-/

namespace IconMarkup.Markdown

/-- The text that an event adds to a description. -/
def Event.spoken : Event → List Char
  | .text content => content.toList
  | .code content => content.toList
  | .softBreak => ['\n']
  | _ => []

/-- Whether a construct stands in running text and has running text inside. -/
def TagKind.isSpan : TagKind → Bool
  | .emphasis => true
  | .strong => true
  | .strikethrough => true
  | .link => true
  | .image => true
  | _ => false

/-- Whether an event is text, code, a line end, or the start or the finish of a construct in running
text. -/
def Event.isSpoken : Event → Bool
  | .text _ => true
  | .code _ => true
  | .softBreak => true
  | .start tag => tag.kind.isSpan
  | .finish kind => kind.isSpan
  | _ => false

/-- The number of open images after an event. -/
def imagesAfter (images : Nat) : Event → Nat
  | .start (.image _ _) => images + 1
  | .finish .image => images - 1
  | _ => images

/-- Events, each with the number of images that are open before it. -/
def withImages (images : Nat) : List Event → List (Nat × Event)
  | [] => []
  | event :: rest => (images, event) :: withImages (imagesAfter images event) rest

/-- The text of events that stands outside images. -/
def outerText (events : List Event) : List Char :=
  ((withImages 0 events).filter (·.1 = 0)).flatMap (·.2.spoken)

/-! ### Open images -/

theorem withImages_append (images : Nat) (first second : List Event) :
    withImages images (first ++ second) =
      withImages images first ++ withImages (first.foldl imagesAfter images) second := by
  induction first generalizing images with
  | nil => rfl
  | cons event rest ih => rw [List.cons_append, withImages, ih]; rfl

private theorem map_snd_withImages (images : Nat) (events : List Event) :
    (withImages images events).map (·.2) = events := by
  induction events generalizing images with
  | nil => rfl
  | cons event rest ih => rw [withImages, List.map_cons, ih]

private theorem imagesAfter_finish_start (tag : Tag) (images : Nat) :
    imagesAfter (imagesAfter images (.start tag)) (.finish tag.kind) = images := by
  cases tag <;> simp [imagesAfter, Tag.kind]

private theorem imagesAfter_of_isSingle {event : Event} (h : event.isSingle = true) (images : Nat) :
    imagesAfter images event = images := by
  cases event <;> first | rfl | cases h

mutual

/-- The events of a tree finish the images that they start. -/
theorem EventTree.foldl_imagesAfter : ∀ (tree : EventTree) (images : Nat),
    tree.events.foldl imagesAfter images = images
  | .single event hsingle, images => imagesAfter_of_isSingle hsingle images
  | .construct tag inside, images => by
    rw [EventTree.events, between, List.cons_append, List.foldl_cons, List.foldl_append,
      foldl_imagesAfter_eventsOf inside]
    exact imagesAfter_finish_start tag images

/-- The events of a forest finish the images that they start. -/
private theorem foldl_imagesAfter_eventsOf : ∀ (forest : List EventTree) (images : Nat),
    (eventsOf forest).foldl imagesAfter images = images
  | [], _ => rfl
  | tree :: rest, images => by
    rw [eventsOf, List.foldl_append, EventTree.foldl_imagesAfter tree,
      foldl_imagesAfter_eventsOf rest]

end

private theorem withImages_between (tag : Tag) (inside : List EventTree) (images : Nat) :
    withImages images (between tag (eventsOf inside)) =
      (images, .start tag) :: withImages (imagesAfter images (.start tag)) (eventsOf inside) ++
        [(imagesAfter images (.start tag), .finish tag.kind)] := by
  rw [between, List.cons_append, withImages, withImages_append, foldl_imagesAfter_eventsOf]
  rfl

mutual

/-- The images that are open before the events of a tree stay open. -/
theorem EventTree.le_of_mem_withImages : ∀ (tree : EventTree) {images : Nat},
    ∀ entry ∈ withImages images tree.events, images ≤ entry.1
  | .single event _, images, entry, h => by
    obtain rfl := List.mem_singleton.mp h
    exact Nat.le_refl _
  | .construct tag inside, images, entry, h => by
    have hstart : images ≤ imagesAfter images (.start tag) := by
      cases tag <;> simp [imagesAfter]
    rw [EventTree.events, withImages_between, List.mem_append, List.mem_cons,
      List.mem_singleton] at h
    rcases h with (rfl | h) | rfl
    · exact Nat.le_refl _
    · exact Nat.le_trans hstart (le_of_mem_withImages_eventsOf inside entry h)
    · exact hstart

/-- The images that are open before the events of a forest stay open. -/
private theorem le_of_mem_withImages_eventsOf : ∀ (forest : List EventTree) {images : Nat},
    ∀ entry ∈ withImages images (eventsOf forest), images ≤ entry.1
  | [], _, entry, h => by cases h
  | tree :: rest, images, entry, h => by
    rw [eventsOf, withImages_append, EventTree.foldl_imagesAfter, List.mem_append] at h
    rcases h with h | h
    · exact EventTree.le_of_mem_withImages tree entry h
    · exact le_of_mem_withImages_eventsOf rest entry h

end

/-! ### Text outside images -/

theorem outerText_append (tree : EventTree) (rest : List Event) :
    outerText (tree.events ++ rest) = outerText tree.events ++ outerText rest := by
  rw [outerText, withImages_append, EventTree.foldl_imagesAfter, List.filter_append,
    List.flatMap_append]
  rfl

/-- No text of an image is outside images. -/
private theorem outerText_image (destination title : String) (inside : List EventTree) :
    outerText (between (.image destination title) (eventsOf inside)) = [] := by
  have hinside : (withImages 1 (eventsOf inside)).filter (·.1 = 0) = [] := by
    refine List.filter_eq_nil_iff.mpr fun entry hentry => ?_
    have hopen := le_of_mem_withImages_eventsOf inside entry hentry
    simpa using Nat.ne_of_gt hopen
  rw [outerText, withImages_between, List.filter_append, List.filter_cons]
  simp [imagesAfter, hinside, Event.spoken]

private theorem Tag.kind_eq_image_iff {tag : Tag} :
    tag.kind = .image ↔ ∃ destination title, tag = .image destination title := by
  cases tag <;> simp [Tag.kind]

private theorem outerText_between {tag : Tag} (h : tag.kind ≠ .image) (inside : List EventTree) :
    outerText (between tag (eventsOf inside)) = outerText (eventsOf inside) := by
  have hstart : imagesAfter 0 (.start tag) = 0 := by
    cases tag <;> first | rfl | exact absurd rfl h
  rw [outerText, withImages_between, hstart, List.filter_append, List.filter_cons]
  simp [outerText, Event.spoken]

/-! ### The text of nodes -/

private theorem textContents_appendText (content : String) (nodes : List Node) :
    textContents (appendText content nodes) = textContents nodes ++ content.toList := by
  rw [appendText]
  split
  · rename_i before hlast
    obtain ⟨earlier, rfl⟩ := List.getLast?_eq_some_iff.mp hlast
    rw [List.dropLast_concat, textContents_append, textContents_append]
    simp [textContents, Node.textContent]
  · split
    · rename_i hempty
      simp [String.isEmpty_iff.mp hempty]
    · rw [textContents_append]
      simp [textContents, Node.textContent]

private theorem textContents_appendTo {event : Event} (hsingle : event.isSingle = true)
    (h : event.isSpoken = true) (nodes : List Node) :
    textContents (event.appendTo nodes) = textContents nodes ++ event.spoken := by
  cases event with
  | text content => exact textContents_appendText content nodes
  | softBreak => exact textContents_appendText "\n" nodes
  | code content =>
    rw [Event.appendTo, textContents_append]
    simp [textContents, Node.textContent, Event.spoken]
  | start tag => cases hsingle
  | finish kind => cases hsingle
  | _ => cases h

/-- An image has no text; another construct in running text has that of its content. -/
private theorem textContents_enclose {tag : Tag} (h : tag.kind.isSpan = true) (inHead : Bool)
    (content : List Node) :
    textContents (tag.enclose inHead content) =
      if tag.kind = .image then [] else textContents content := by
  cases tag with
  | image destination title => rfl
  | emphasis => exact List.append_nil _
  | strong => exact List.append_nil _
  | strikethrough => exact List.append_nil _
  | link destination title => exact List.append_nil _
  | _ => cases h

private theorem isSpoken_inside {tag : Tag} {inside : List EventTree}
    (h : ∀ event ∈ (EventTree.construct tag inside).events, event.isSpoken = true) :
    tag.kind.isSpan = true ∧ ∀ event ∈ eventsOf inside, event.isSpoken = true := by
  rw [EventTree.events, between] at h
  refine ⟨h (.start tag) (by simp), fun event hevent => h event ?_⟩
  simp [hevent]

mutual

/-- The text of what a tree of spoken events adds is its text outside images. -/
theorem EventTree.textContents_appendTo (inHead : Bool) : ∀ (tree : EventTree) (nodes : List Node),
    (∀ event ∈ tree.events, event.isSpoken = true) →
    textContents (tree.appendTo inHead nodes) = textContents nodes ++ outerText tree.events
  | .single event hsingle, nodes, h => by
    rw [EventTree.appendTo,
      Markdown.textContents_appendTo hsingle (h event (by simp [EventTree.events]))]
    simp [outerText, EventTree.events, withImages]
  | .construct tag inside, nodes, h => by
    obtain ⟨hspan, hinside⟩ := isSpoken_inside h
    rw [EventTree.appendTo, textContents_append, textContents_enclose hspan, EventTree.events,
      textContents_appendForest (tag = .tableHead || inHead) inside [] hinside]
    by_cases himage : tag.kind = .image
    · obtain ⟨destination, title, rfl⟩ := Tag.kind_eq_image_iff.mp himage
      rw [if_pos himage, outerText_image]
    · rw [if_neg himage, outerText_between himage]
      rfl

/-- The text of what a forest of spoken events adds is its text outside images. -/
theorem textContents_appendForest (inHead : Bool) :
    ∀ (forest : List EventTree) (nodes : List Node),
    (∀ event ∈ eventsOf forest, event.isSpoken = true) →
    textContents (appendForest inHead nodes forest) =
      textContents nodes ++ outerText (eventsOf forest)
  | [], nodes, _ => by simp [appendForest, eventsOf, outerText, withImages]
  | tree :: rest, nodes, h => by
    rw [eventsOf, List.forall_mem_append] at h
    rw [appendForest, textContents_appendForest inHead rest _ h.2,
      EventTree.textContents_appendTo inHead tree nodes h.1, eventsOf, outerText_append,
      List.append_assoc]

end

mutual

/-- Spoken events start no table head. -/
theorem EventTree.headsApart_of_isSpoken : ∀ (tree : EventTree) (inHead : Bool),
    (∀ event ∈ tree.events, event.isSpoken = true) → tree.headsApart inHead = true
  | .single _ _, _, _ => rfl
  | .construct tag inside, inHead, h => by
    obtain ⟨hspan, hinside⟩ := isSpoken_inside h
    have htag : tag ≠ .tableHead := by
      rintro rfl
      cases hspan
    rw [EventTree.headsApart, headsApartIn_of_isSpoken inside _ hinside, decide_eq_false htag]
    rfl

/-- Spoken events start no table head. -/
private theorem headsApartIn_of_isSpoken : ∀ (forest : List EventTree) (inHead : Bool),
    (∀ event ∈ eventsOf forest, event.isSpoken = true) → headsApartIn inHead forest = true
  | [], _, _ => rfl
  | tree :: rest, inHead, h => by
    rw [eventsOf, List.forall_mem_append] at h
    rw [headsApartIn, EventTree.headsApart_of_isSpoken tree inHead h.1,
      headsApartIn_of_isSpoken rest inHead h.2]
    rfl

end

/-! ### Images -/

/-- Leaving some parts out makes no difference exactly if they are empty. -/
private theorem flatMap_filter_eq_iff {α β : Type} {keep : α → Bool} {parts : α → List β}
    (items : List α) :
    (items.filter keep).flatMap parts = items.flatMap parts ↔
      ∀ item ∈ items, keep item = false → parts item = [] := by
  induction items with
  | nil => simp
  | cons item rest ih =>
    rw [List.filter_cons, List.flatMap_cons, List.forall_mem_cons]
    rcases hkeep : keep item with _ | _
    · have hle : ((rest.filter keep).flatMap parts).length ≤ (rest.flatMap parts).length :=
        (List.filter_sublist.flatMap parts).length_le
      refine ⟨fun h => ?_, fun h => ?_⟩
      · have hlength := congrArg List.length h
        simp only [Bool.false_eq_true, if_false, List.length_append] at hlength
        have hempty : parts item = [] := List.eq_nil_of_length_eq_zero (by omega)
        rw [hempty] at h
        exact ⟨fun _ => hempty, ih.mp (by simpa using h)⟩
      · simpa [h.1 rfl] using ih.mpr h.2
    · simpa using ih

private theorem attributes_image (destination title alt : String) :
    (Tag.image destination title).element.attributes.set "alt" alt =
      ⟨("src", destination) :: (if title = "" then [] else [("title", title)]) ++
        [("alt", alt)]⟩ := by
  by_cases htitle : title = "" <;>
    simp [Tag.element, Tag.element.titled, Element.leaf, htitle, Attributes.ofList,
      Attributes.set, Attributes.setEntry, Attributes.empty]

/-- An image becomes one element without children. Its alternative text consists of the texts and
line ends outside images inside it, in order, whatever constructs they stand in; it has all texts
and line ends exactly if none stands inside another image. -/
theorem foldl_take_image (builder : Builder) (destination title : String) {inside : List Event}
    (hnested : isNested [] inside = true) (hspoken : ∀ event ∈ inside, event.isSpoken = true) :
    (between (.image destination title) inside).foldl Builder.take builder =
        builder.add (.element "img" ⟨("src", destination) ::
          (if title = "" then [] else [("title", title)]) ++
            [("alt", String.ofList (outerText inside))]⟩ []) ∧
      (outerText inside = inside.flatMap Event.spoken ↔
        ∀ entry ∈ withImages 0 inside, entry.1 ≠ 0 → entry.2.spoken = []) := by
  constructor
  · obtain ⟨forest, rfl, -⟩ := exists_eventsOf_eq hnested
    have happart : (EventTree.construct (.image destination title) forest).headsApart
        builder.inTableHead = true := by
      rw [EventTree.headsApart, headsApartIn_of_isSpoken forest _ hspoken]
      rfl
    have htaken := EventTree.foldl_take _ happart
    have halt : textContents (appendForest builder.inTableHead [] forest) =
        outerText (eventsOf forest) :=
      textContents_appendForest builder.inTableHead forest [] hspoken
    rw [EventTree.events] at htaken
    rw [htaken, Builder.add_eq, ← attributes_image, ← halt]
    rfl
  · have hall : inside.flatMap Event.spoken =
        (withImages 0 inside).flatMap (·.2.spoken) := by
      conv => lhs; rw [← map_snd_withImages 0 inside]
      rw [List.flatMap_map]
    rw [outerText, hall, flatMap_filter_eq_iff]
    simp

/-- What stands inside an image that has another image inside. -/
def pictureInPicture : List Event :=
  [.text "x ", .start (.image "z" ""), .text "y", .finish .image]

/-- The text of the inner image is missing. -/
theorem not_foldl_take_image_pictureInPicture :
    isNested [] pictureInPicture = true ∧ (∀ event ∈ pictureInPicture, event.isSpoken = true) ∧
      pictureInPicture.flatMap Event.spoken = "x y".toList ∧
      (between (.image "w" "") pictureInPicture).foldl Builder.take {} =
        Builder.add {} (.element "img" ⟨[("src", "w"), ("alt", "x ")]⟩ []) ∧
      outerText pictureInPicture ≠ pictureInPicture.flatMap Event.spoken := by
  have hnested : isNested [] pictureInPicture = true := by decide
  have hspoken : ∀ event ∈ pictureInPicture, event.isSpoken = true := by decide
  obtain ⟨htaken, hcomplete⟩ := foldl_take_image {} "w" "" hnested hspoken
  refine ⟨hnested, hspoken, by decide, htaken, fun h => ?_⟩
  exact absurd (hcomplete.mp h (1, .text "y") (by decide) (by decide)) (by decide)

end IconMarkup.Markdown
