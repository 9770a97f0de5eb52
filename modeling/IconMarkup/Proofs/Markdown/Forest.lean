import IconMarkup.Markdown.Events

/-!
# Forests of events

Events that finish what they start, the innermost construct first (`isNested`), are the events of a
forest: what stands between the start and the finish of a construct is below it. Every such sequence
can be read as a forest (`exists_eventsOf_eq`), and in one way only (`eventsOf_injective`).
-/

namespace IconMarkup.Markdown

/-- Whether an event stands for itself: it neither starts nor finishes a construct. -/
def Event.isSingle : Event → Bool
  | .start _ => false
  | .finish _ => false
  | _ => true

/-- Whether events finish everything that is open and that they start, the innermost construct
first, and start no table head inside a table head. The constructs that are open before the events
are given innermost first. -/
def isNested (opened : List TagKind) : List Event → Bool
  | [] => opened.isEmpty
  | .start tag :: rest =>
    !(tag = .tableHead && opened.contains .tableHead) && isNested (tag.kind :: opened) rest
  | .finish kind :: rest =>
    match opened with
    | [] => false
    | innermost :: outer => innermost = kind && isNested outer rest
  | _ :: rest => isNested opened rest

/-- A construct with everything inside it, or an event that stands for itself. -/
inductive EventTree where
  /-- An event that stands for itself. -/
  | single (event : Event) (h : event.isSingle = true)
  /-- A construct. -/
  | construct (tag : Tag) (inside : List EventTree)

mutual

/-- The events of a tree. -/
def EventTree.events : EventTree → List Event
  | .single event _ => [event]
  | .construct tag inside => between tag (eventsOf inside)

/-- The events of a forest. -/
def eventsOf : List EventTree → List Event
  | [] => []
  | tree :: rest => tree.events ++ eventsOf rest

end

mutual

/-- Whether no table head stands inside a table head; `inHead` tells whether the tree itself
does. -/
def EventTree.headsApart (inHead : Bool) : EventTree → Bool
  | .single _ _ => true
  | .construct tag inside =>
    !(tag = .tableHead && inHead) && headsApartIn (tag = .tableHead || inHead) inside

/-- Whether no table head stands inside a table head; `inHead` tells whether the forest itself
does. -/
def headsApartIn (inHead : Bool) : List EventTree → Bool
  | [] => true
  | tree :: rest => tree.headsApart inHead && headsApartIn inHead rest

end

/-! ### Reading events as a forest -/

/-- Whether events begin by finishing the innermost open construct, and then go on nested; without
an open construct there are none. -/
def Finishes (opened : List TagKind) (events : List Event) : Prop :=
  match opened with
  | [] => events = []
  | innermost :: outer => ∃ rest, events = .finish innermost :: rest ∧ isNested outer rest = true

private theorem isNested_single {opened : List TagKind} {event : Event} {rest : List Event}
    (h : event.isSingle = true) : isNested opened (event :: rest) = isNested opened rest := by
  cases event <;> first | rfl | cases h

private theorem contains_kind_cons (tag : Tag) (opened : List TagKind) :
    (tag.kind :: opened).contains .tableHead =
      (decide (tag = .tableHead) || opened.contains .tableHead) := by
  cases tag <;> simp [Tag.kind]

/-- Nested events are those of a forest up to where the innermost open construct is finished. -/
theorem exists_forest_of_isNested {opened : List TagKind} {events : List Event}
    (h : isNested opened events = true) :
    ∃ forest rest, events = eventsOf forest ++ rest ∧
      headsApartIn (opened.contains .tableHead) forest = true ∧ Finishes opened rest := by
  induction hlength : events.length using Nat.strongRecOn generalizing opened events with
  | ind length ih =>
    subst hlength
    rcases events with _ | ⟨event, more⟩
    · refine ⟨[], [], rfl, rfl, ?_⟩
      rw [List.isEmpty_iff.mp h]
      rfl
    by_cases hsingle : event.isSingle = true
    · rw [isNested_single hsingle] at h
      obtain ⟨forest, rest, hmore, happart, hrest⟩ := ih more.length (by simp) h rfl
      refine ⟨.single event hsingle :: forest, rest, ?_, ?_, hrest⟩
      · rw [hmore]
        rfl
      · simpa [headsApartIn, EventTree.headsApart] using happart
    cases event with
    | start tag =>
      rw [isNested, Bool.and_eq_true] at h
      -- first everything up to the finish of this construct, then what comes after it
      obtain ⟨inside, after, hmore, hinside, rest, rfl, hnested⟩ := ih more.length (by simp) h.2 rfl
      have hshorter : rest.length < (Event.start tag :: more).length := by
        rw [hmore, List.length_cons, List.length_append, List.length_cons]
        omega
      obtain ⟨forest, last, hrest, happart, hlast⟩ := ih rest.length hshorter hnested rfl
      refine ⟨.construct tag inside :: forest, last, ?_, ?_, hlast⟩
      · simp [hmore, hrest, eventsOf, EventTree.events, between]
      · rw [contains_kind_cons] at hinside
        rw [headsApartIn, EventTree.headsApart, h.1, hinside, happart]
        rfl
    | finish kind =>
      rcases opened with _ | ⟨innermost, outer⟩
      · cases h
      · simp only [isNested, Bool.and_eq_true, decide_eq_true_eq] at h
        obtain ⟨rfl, hnested⟩ := h
        exact ⟨[], .finish innermost :: more, rfl, rfl, more, rfl, hnested⟩
    | _ => exact absurd rfl hsingle

/-- Nested events are those of a forest in which no table head stands inside a table head. -/
theorem exists_eventsOf_eq {events : List Event} (h : isNested [] events = true) :
    ∃ forest, eventsOf forest = events ∧ headsApartIn false forest = true := by
  obtain ⟨forest, rest, hevents, happart, hrest⟩ := exists_forest_of_isNested h
  refine ⟨forest, ?_, happart⟩
  rw [hevents, show rest = [] from hrest, List.append_nil]

/-! ### One way only -/

/-- The events of a tree do not begin by finishing a construct. -/
private theorem EventTree.not_head?_finish (tree : EventTree) (rest : List Event) :
    ¬ ∀ event ∈ (tree.events ++ rest).head?, ∃ kind, event = .finish kind := by
  intro h
  cases tree with
  | single event hsingle =>
    obtain ⟨kind, rfl⟩ := h event (by simp [EventTree.events])
    cases hsingle
  | construct tag inside =>
    obtain ⟨kind, hkind⟩ := h (.start tag) (by simp [EventTree.events, between])
    cases hkind

mutual

/-- What a sequence that begins with the events of a tree begins with, and what comes then. -/
theorem EventTree.eq_of_events_append : ∀ (first second : EventTree) {rest others : List Event},
    first.events ++ rest = second.events ++ others → first = second ∧ rest = others
  | .single event hsingle, .single other _, rest, others, h => by
    simp only [EventTree.events, List.cons_append, List.nil_append, List.cons.injEq] at h
    obtain ⟨rfl, rfl⟩ := h
    exact ⟨rfl, rfl⟩
  | .single event hsingle, .construct tag inside, rest, others, h => by
    simp only [EventTree.events, between, List.cons_append, List.cons.injEq] at h
    rw [h.1] at hsingle
    cases hsingle
  | .construct tag inside, .single event hsingle, rest, others, h => by
    simp only [EventTree.events, between, List.cons_append, List.cons.injEq] at h
    rw [← h.1] at hsingle
    cases hsingle
  | .construct tag inside, .construct tag' inside', rest, others, h => by
    simp only [EventTree.events, between, List.cons_append, List.append_assoc, List.nil_append,
      List.cons.injEq, Event.start.injEq] at h
    obtain ⟨rfl, h⟩ := h
    obtain ⟨rfl, hrest⟩ := eq_of_eventsOf_append inside inside' (by simp) (by simp) h
    exact ⟨rfl, (List.cons.inj hrest).2⟩

/-- What a sequence that begins with the events of a forest begins with, if a construct is finished
or nothing comes then. -/
private theorem eq_of_eventsOf_append :
    ∀ (first second : List EventTree) {rest others : List Event},
    (∀ event ∈ rest.head?, ∃ kind, event = .finish kind) →
    (∀ event ∈ others.head?, ∃ kind, event = .finish kind) →
    eventsOf first ++ rest = eventsOf second ++ others → first = second ∧ rest = others
  | [], [], rest, others, _, _, h => ⟨rfl, h⟩
  | [], tree :: more, rest, others, hrest, _, h => by
    simp only [eventsOf, List.nil_append, List.append_assoc] at h
    exact absurd (h ▸ hrest) (tree.not_head?_finish _)
  | tree :: more, [], rest, others, _, hothers, h => by
    simp only [eventsOf, List.nil_append, List.append_assoc] at h
    exact absurd (h ▸ hothers) (tree.not_head?_finish _)
  | tree :: more, tree' :: more', rest, others, hrest, hothers, h => by
    simp only [eventsOf, List.append_assoc] at h
    obtain ⟨rfl, hmore⟩ := EventTree.eq_of_events_append tree tree' h
    obtain ⟨rfl, hlast⟩ := eq_of_eventsOf_append more more' hrest hothers hmore
    exact ⟨rfl, hlast⟩

end

/-- Events are those of one forest at most. -/
theorem eventsOf_injective : Function.Injective eventsOf := by
  intro first second h
  have hend : eventsOf first ++ [] = eventsOf second ++ [] := by rw [h]
  exact (eq_of_eventsOf_append first second (by simp) (by simp) hend).1

end IconMarkup.Markdown
