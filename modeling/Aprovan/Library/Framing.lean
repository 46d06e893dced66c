import Aprovan.Library.Text

/-!
# Records joined by a separator

A manifest writes one record after the other with a separator in between.  A
record is a header and a body of any text; nothing keeps the separator out of a
body.  As long as no body holds a separator with a header behind it, the records
can be told from the joined text.
-/

namespace Aprovan.Library

/-- A record, as it is written. -/
structure Frame where
  (header body : Text)

def Frame.text (frame : Frame) : Text :=
  frame.header ++ frame.body

def joinFrames (separator : Char) (frames : List Frame) : Text :=
  joinWith separator (frames.map Frame.text)

/-- What makes headers recognizable: none is empty or holds the separator,
and none starts another one. -/
structure Framing (separator : Char) (Header : Text → Prop) : Prop where
  nonempty : ∀ header, Header header → header ≠ []
  unbroken : ∀ header, Header header → separator ∉ header
  prefixFree : ∀ first second restFirst restSecond, Header first → Header second →
      first ++ restFirst = second ++ restSecond → first = second

def Unambiguous (separator : Char) (Header : Text → Prop) (body : Text) : Prop :=
  ∀ before header after, Header header → body ≠ before ++ separator :: (header ++ after)

/-- A record that a reader recognizes. -/
structure Frame.Plain (separator : Char) (Header : Text → Prop) (frame : Frame) : Prop where
  header : Header frame.header
  body : Unambiguous separator Header frame.body

theorem unambiguous_of_not_mem {separator : Char} {Header : Text → Prop}
    {body : Text} (absent : separator ∉ body) :
    Unambiguous separator Header body := by
  rintro before header after _ rfl
  simp at absent

section

variable {separator : Char} {Header : Text → Prop}

theorem joinFrames_cons_cons (frame next : Frame) (others : List Frame) :
    joinFrames separator (frame :: next :: others) =
      frame.text ++ separator :: joinFrames separator (next :: others) :=
  rfl

/-- A joined text starts with the header of its first record. -/
theorem header_of_joinFrames (frame : Frame) (others : List Frame) :
    ∃ rest, joinFrames separator (frame :: others) = frame.header ++ rest := by
  cases others with
  | nil => exact ⟨frame.body, rfl⟩
  | cons next others =>
    refine ⟨frame.body ++ separator :: joinFrames separator (next :: others), ?_⟩
    rw [joinFrames_cons_cons, Frame.text, List.append_assoc]

theorem body_of_text_eq (framing : Framing separator Header)
    {frame : Frame} (known : Header frame.header) {before after : Text}
    (split : frame.text = before ++ separator :: after) :
    ∃ start, frame.body = start ++ separator :: after := by
  rw [Frame.text, List.append_eq_append_iff] at split
  rcases split with ⟨start, _, body⟩ | ⟨start, header, rest⟩
  · exact ⟨start, body⟩
  · cases start with
    | nil => exact ⟨[], rest.symm⟩
    | cons letter tail =>
      have inside : separator ∈ frame.header := by
        rw [header, List.cons.inj rest |>.1]
        simp
      exact absurd inside (framing.unbroken _ known)

/-- A part of a joined text that ends at a separator, or with the text, holds
the first header. -/
theorem header_of_part (framing : Framing separator Header) {frame : Frame} {others : List Frame}
    (known : Header frame.header) {part rest : Text}
    (split : joinFrames separator (frame :: others) = part ++ rest)
    (ends : rest = [] ∨ ∃ later, rest = separator :: later) :
    ∃ after, part = frame.header ++ after := by
  obtain ⟨whole, starts⟩ := header_of_joinFrames frame others
  rw [starts, List.append_eq_append_iff] at split
  rcases split with ⟨after, part, _⟩ | ⟨cut, header, remaining⟩
  · exact ⟨after, part⟩
  · cases cut with
    | nil => exact ⟨[], by rw [header, List.append_nil, List.append_nil]⟩
    | cons letter tail =>
      rcases ends with rfl | ⟨later, rfl⟩
      · cases remaining
      · have inside : separator ∈ frame.header := by
          rw [header, (List.cons.inj remaining).1]
          simp
        exact absurd inside (framing.unbroken _ known)

def following (separator : Char) (frames : List Frame) : Text :=
  match frames with
  | [] => []
  | _ :: _ => separator :: joinFrames separator frames

theorem joinFrames_cons (frame : Frame) (others : List Frame) :
    joinFrames separator (frame :: others) = frame.text ++ following separator others := by
  cases others with
  | nil => exact (List.append_nil frame.text).symm
  | cons next others => rfl

theorem following_ends (frames : List Frame) :
    following separator frames = [] ∨ ∃ later, following separator frames = separator :: later := by
  cases frames with
  | nil => exact Or.inl rfl
  | cons frame others => exact Or.inr ⟨_, rfl⟩

theorem not_run_on (framing : Framing separator Header) {first second : Frame}
    {others : List Frame} {rest more : Text} (plain : second.Plain separator Header)
    (known : ∀ frame ∈ others, Header frame.header) (longer : second.text = first.text ++ more)
    (same : following separator others = more ++ rest)
    (ends : rest = [] ∨ ∃ later, rest = separator :: later) :
    more = [] := by
  cases more with
  | nil => rfl
  | cons letter tail =>
    cases others with
    | nil => cases same
    | cons next others =>
      have separates := (List.cons.inj same).1
      have remaining := (List.cons.inj same).2
      subst separates
      obtain ⟨after, begins⟩ := header_of_part framing
        (known next List.mem_cons_self) remaining ends
      obtain ⟨start, body⟩ :=
        body_of_text_eq framing plain.header longer
      rw [begins] at body
      exact absurd body (plain.body start next.header after (known next List.mem_cons_self))

/-- Plain records are told by their texts. -/
theorem Frame.eq_of_text_eq (framing : Framing separator Header) {first second : Frame}
    (knownFirst : Header first.header) (knownSecond : Header second.header)
    (same : first.text = second.text) : first = second := by
  have headers := framing.prefixFree _ _ _ _ knownFirst knownSecond same
  rw [Frame.text, Frame.text, headers, List.append_cancel_left_eq] at same
  cases first
  cases second
  simp_all

theorem eq_of_joinFrames_eq (framing : Framing separator Header) {first second : List Frame}
    (plainFirst : ∀ frame ∈ first, frame.Plain separator Header)
    (plainSecond : ∀ frame ∈ second, frame.Plain separator Header)
    (same : joinFrames separator first = joinFrames separator second) :
    first = second := by
  induction first generalizing second with
  | nil =>
    cases second with
    | nil => rfl
    | cons frame others =>
      obtain ⟨rest, starts⟩ := header_of_joinFrames frame others
      rw [← same] at starts
      have known := (plainSecond frame List.mem_cons_self).header
      have empty := (List.append_eq_nil_iff.mp starts.symm).1
      exact absurd empty (framing.nonempty _ known)
  | cons frame others ih =>
    cases second with
    | nil =>
      obtain ⟨rest, starts⟩ := header_of_joinFrames frame others
      rw [same] at starts
      have known := (plainFirst frame List.mem_cons_self).header
      have empty := (List.append_eq_nil_iff.mp starts.symm).1
      exact absurd empty (framing.nonempty _ known)
    | cons next rest =>
      have firstPlain := plainFirst frame List.mem_cons_self
      have nextPlain := plainSecond next List.mem_cons_self
      have othersPlain : ∀ other ∈ others,
          other.Plain separator Header := fun other member =>
        plainFirst other (List.mem_cons_of_mem frame member)
      have restPlain : ∀ other ∈ rest,
          other.Plain separator Header := fun other member =>
        plainSecond other (List.mem_cons_of_mem next member)
      rw [joinFrames_cons, joinFrames_cons] at same
      have texts : frame.text = next.text := by
        rcases List.append_eq_append_iff.mp same with
          ⟨more, longer, left⟩ | ⟨more, longer, left⟩
        · have none_left := not_run_on framing nextPlain
            (fun other member => (othersPlain other member).header)
            longer left (following_ends rest)
          rw [longer, none_left, List.append_nil]
        · have none_left := not_run_on framing firstPlain
            (fun other member => (restPlain other member).header)
            longer left (following_ends others)
          rw [longer, none_left, List.append_nil]
      have heads := Frame.eq_of_text_eq framing firstPlain.header nextPlain.header texts
      rw [texts, List.append_cancel_left_eq] at same
      have tails : joinFrames separator others = joinFrames separator rest := by
        cases others <;> cases rest <;> simp_all [following, joinFrames, joinWith]
      rw [heads, ih othersPlain restPlain tails]

/-- A record whose body is not plain reads like two. -/
theorem joinFrames_cut (earlier later : List Frame) (header body next after : Text) :
    joinFrames separator (earlier ++ ⟨header, body ++ separator :: (next ++ after)⟩ :: later) =
      joinFrames separator (earlier ++ ⟨header, body⟩ :: ⟨next, after⟩ :: later) := by
  induction earlier with
  | nil =>
    rw [List.nil_append, List.nil_append, joinFrames_cons,
      joinFrames_cons, following, joinFrames_cons]
    simp [Frame.text]
  | cons frame others ih =>
    rw [List.cons_append, List.cons_append, joinFrames_cons, joinFrames_cons]
    cases others <;>
      simpa [following] using ih

/-! ## Cuts

Two lists of records have the same joined text if and only if they come to
the same list once their records are cut. -/

/-- Take a separator in a body, with a header behind it, for the end of the
record. -/
inductive Cut (separator : Char) (Header : Text → Prop) : List Frame → List Frame → Prop where
  | at_separator (earlier later : List Frame) (header body next after : Text)
      (starts : Header next) :
      Cut separator Header (earlier ++ ⟨header, body ++ separator :: (next ++ after)⟩ :: later)
        (earlier ++ ⟨header, body⟩ :: ⟨next, after⟩ :: later)

/-- Cuts lead from both lists to the same records. -/
def ReadAlike (separator : Char) (Header : Text → Prop) (first second : List Frame) : Prop :=
  Relation.Join (Relation.ReflTransGen (Cut separator Header)) first second

theorem joinFrames_eq_of_cuts {frames pieces : List Frame}
    (cuts : Relation.ReflTransGen (Cut separator Header) frames pieces) :
    joinFrames separator frames = joinFrames separator pieces := by
  induction cuts with
  | refl => rfl
  | tail _ last ih =>
    obtain ⟨earlier, later, header, body, next, after, _⟩ := last
    rw [ih, joinFrames_cut]

/-- How much of a text is in the bodies. -/
def bodyLength (frames : List Frame) : Nat :=
  (frames.map fun frame => frame.body.length).sum

theorem bodyLength_of_cut {frames pieces : List Frame} (cut : Cut separator Header frames pieces) :
    bodyLength pieces < bodyLength frames := by
  obtain ⟨earlier, later, header, body, next, after, _⟩ := cut
  simp only [bodyLength, List.map_append, List.map_cons, List.sum_append,
    List.sum_cons, List.length_append, List.length_cons]
  omega

/-- A cut leaves records with known headers. -/
theorem known_of_cut {frames pieces : List Frame} (known : ∀ frame ∈ frames, Header frame.header)
    (cut : Cut separator Header frames pieces) :
    ∀ frame ∈ pieces, Header frame.header := by
  obtain ⟨earlier, later, header, body, next, after, starts⟩ := cut
  intro frame member
  simp only [List.mem_append, List.mem_cons] at member
  rcases member with before | rfl | rfl | behind
  · exact known frame (List.mem_append_left _ before)
  · exact known ⟨header, body ++ separator :: (next ++ after)⟩ (by simp)
  · exact starts
  · exact known frame (by simp [behind])

theorem exists_cut {frames : List Frame} (known : ∀ frame ∈ frames, Header frame.header)
    (unread : ¬∀ frame ∈ frames, frame.Plain separator Header) :
    ∃ pieces, Cut separator Header frames pieces := by
  simp only [not_forall] at unread
  obtain ⟨frame, member, unread⟩ := unread
  have broken : ¬Unambiguous separator Header frame.body := fun body =>
    unread ⟨known frame member, body⟩
  simp only [Unambiguous, ne_eq, not_forall, not_not] at broken
  obtain ⟨before, next, after, starts, body⟩ := broken
  obtain ⟨earlier, later, rfl⟩ := List.append_of_mem member
  obtain ⟨header, whole⟩ := frame
  subst body
  exact ⟨_, .at_separator earlier later header before next after starts⟩

/-- Enough cuts leave plain records only. -/
theorem exists_plain_of_cuts {frames : List Frame}
    (known : ∀ frame ∈ frames, Header frame.header) :
    ∃ pieces, Relation.ReflTransGen (Cut separator Header) frames pieces ∧
      ∀ frame ∈ pieces, frame.Plain separator Header := by
  by_cases plain : ∀ frame ∈ frames, frame.Plain separator Header
  · exact ⟨frames, .refl, plain⟩
  · obtain ⟨next, cut⟩ := exists_cut known plain
    have shorter := bodyLength_of_cut cut
    obtain ⟨pieces, cuts, plain⟩ :=
      exists_plain_of_cuts (known_of_cut known cut)
    exact ⟨pieces, .head cut cuts, plain⟩
termination_by bodyLength frames

theorem joinFrames_eq_iff (framing : Framing separator Header) {first second : List Frame}
    (knownFirst : ∀ frame ∈ first, Header frame.header)
    (knownSecond : ∀ frame ∈ second, Header frame.header) :
    joinFrames separator first = joinFrames separator second ↔
      ReadAlike separator Header first second := by
  constructor
  · intro same
    obtain ⟨pieces, cuts, plain⟩ :=
      @exists_plain_of_cuts separator Header first knownFirst
    obtain ⟨others, otherCuts, otherPlain⟩ :=
      @exists_plain_of_cuts separator Header second knownSecond
    have texts : joinFrames separator pieces = joinFrames separator others := by
      rw [← joinFrames_eq_of_cuts cuts, same, joinFrames_eq_of_cuts otherCuts]
    rw [← eq_of_joinFrames_eq framing plain otherPlain texts] at otherCuts
    exact ⟨pieces, cuts, otherCuts⟩
  · rintro ⟨pieces, cuts, otherCuts⟩
    rw [joinFrames_eq_of_cuts cuts, joinFrames_eq_of_cuts otherCuts]

/-- Plain records cannot be cut. -/
theorem eq_of_plain_of_cuts {frames pieces : List Frame}
    (plain : ∀ frame ∈ frames, frame.Plain separator Header)
    (cuts : Relation.ReflTransGen (Cut separator Header) frames pieces) :
    pieces = frames := by
  rcases cuts.cases_head with rfl | ⟨next, cut, _⟩
  · rfl
  · obtain ⟨earlier, later, header, body, next, after, starts⟩ := cut
    have unbroken := (plain ⟨header, body ++ separator :: (next ++ after)⟩ (by simp)).body
    exact absurd rfl (unbroken body next after starts)

end

end Aprovan.Library
