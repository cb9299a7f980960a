import Mathlib.Data.List.Basic

/-!
# Framing

A stream read in pieces and cut into frames at a separator, with what follows the
last separator kept for the next piece.  The frames are those of the whole text:
where the pieces were cut does not matter.
-/

namespace RpaEnterprise.Lib.Framing

variable {α : Type*} [DecidableEq α] (separator : List α)

/-- What stands before the first separator, and what stands after it. -/
def cut : List α → Option (List α × List α)
  | [] => none
  | symbol :: rest =>
    if separator <+: symbol :: rest then some ([], (symbol :: rest).drop separator.length)
    else (cut rest).map fun found => (symbol :: found.1, found.2)

variable {separator}

theorem cut_eq_none {text : List α} (absent : ¬ separator <:+: text) : cut separator text = none := by
  induction text with
  | nil => rfl
  | cons symbol rest ih =>
    rw [cut, if_neg fun early => absent early.isInfix, ih fun later => absent (later.trans (List.suffix_cons ..).isInfix)]
    rfl

/-- A frame, the separator and what stands after it make up the text. -/
theorem append_of_cut {text frame left : List α} (found : cut separator text = some (frame, left)) :
    text = frame ++ separator ++ left := by
  induction text generalizing frame with
  | nil => cases found
  | cons symbol rest ih =>
    rw [cut] at found
    split at found
    next early =>
      cases found
      rw [List.nil_append, List.prefix_iff_eq_append.mp early]
    next =>
      obtain ⟨⟨before, after⟩, later, same⟩ := Option.map_eq_some_iff.mp found
      obtain ⟨rfl, rfl⟩ := Prod.mk.inj same
      rw [ih later]
      rfl

theorem length_le_of_cut {text frame left : List α} (found : cut separator text = some (frame, left)) :
    separator.length + left.length ≤ text.length := by
  rw [append_of_cut found]
  simp only [List.length_append]
  omega

/-- More text does not move the first separator. -/
theorem cut_append {text frame left : List α} (found : cut separator text = some (frame, left)) (more : List α) :
    cut separator (text ++ more) = some (frame, left ++ more) := by
  induction text generalizing frame with
  | nil => cases found
  | cons symbol rest ih =>
    have long := length_le_of_cut found
    rw [cut] at found
    rw [List.cons_append, cut]
    split at found
    next early =>
      cases found
      have still : separator <+: symbol :: (rest ++ more) :=
        early.trans (List.prefix_append (symbol :: rest) more)
      rw [if_pos still, ← List.cons_append, List.drop_append_of_le_length early.length_le]
    next notEarly =>
      obtain ⟨⟨before, after⟩, later, same⟩ := Option.map_eq_some_iff.mp found
      obtain ⟨rfl, rfl⟩ := Prod.mk.inj same
      -- The separator fits into the text, so it cannot begin here only because of what is added.
      have stays : ¬separator <+: symbol :: (rest ++ more) := fun early =>
        notEarly (List.prefix_of_prefix_length_le early (List.prefix_append (symbol :: rest) more) (by omega))
      rw [if_neg stays, ih later]
      rfl

variable (separator)

def framesWithin : Nat → List α → List (List α) × List α
  | 0, text => ([], text)
  | fuel + 1, text =>
    match cut separator text with
    | none => ([], text)
    | some (frame, left) => (frame :: (framesWithin fuel left).1, (framesWithin fuel left).2)

/-- The frames of a text, and what follows the last separator. -/
def frames (text : List α) : List (List α) × List α := framesWithin separator text.length text

/-- The frames of a stream that is read in pieces. -/
def feed (buffer : List α) : List (List α) → List (List α)
  | [] => []
  | piece :: rest =>
    (frames separator (buffer ++ piece)).1 ++ feed (frames separator (buffer ++ piece)).2 rest

variable {separator} (nonempty : separator ≠ [])

include nonempty

theorem shorter_of_cut {text frame left : List α} (found : cut separator text = some (frame, left)) :
    left.length < text.length := by
  have := length_le_of_cut found
  have := List.length_pos_of_ne_nil nonempty
  omega

theorem framesWithin_enough {fuel : Nat} {text : List α} (enough : text.length ≤ fuel) :
    framesWithin separator fuel text = frames separator text := by
  rw [frames]
  induction fuel using Nat.strongRecOn generalizing text with
  | ind fuel ih =>
    cases fuel with
    | zero => rw [Nat.le_zero.mp enough]
    | succ fuel =>
      cases text with
      | nil => rfl
      | cons symbol rest =>
        rw [List.length_cons, framesWithin, framesWithin]
        cases found : cut separator (symbol :: rest) with
        | none => rfl
        | some split =>
          have shorter := shorter_of_cut nonempty found
          rw [List.length_cons] at shorter enough
          have one : framesWithin separator fuel split.2 = framesWithin separator split.2.length split.2 :=
            ih fuel (by omega) (by omega)
          have two : framesWithin separator rest.length split.2 = framesWithin separator split.2.length split.2 :=
            ih rest.length (by omega) (by omega)
          simp only [one, two]

theorem frames_eq (text : List α) :
    frames separator text =
      match cut separator text with
      | none => ([], text)
      | some (frame, left) => (frame :: (frames separator left).1, (frames separator left).2) := by
  cases text with
  | nil => rfl
  | cons symbol rest =>
    rw [frames, List.length_cons, framesWithin]
    cases found : cut separator (symbol :: rest) with
    | none => rfl
    | some split =>
      have shorter := shorter_of_cut nonempty found
      rw [List.length_cons] at shorter
      simp only [framesWithin_enough nonempty (Nat.le_of_lt_succ shorter)]

/-- The frames of a longer text: those of its beginning, and those of what was left with the rest. -/
theorem frames_append (text more : List α) :
    frames separator (text ++ more) =
      ((frames separator text).1 ++ (frames separator ((frames separator text).2 ++ more)).1,
        (frames separator ((frames separator text).2 ++ more)).2) := by
  induction size : text.length using Nat.strongRecOn generalizing text with
  | ind length ih =>
    cases found : cut separator text with
    | none =>
      have alone : frames separator text = ([], text) := by rw [frames_eq nonempty, found]
      simp only [alone, List.nil_append]
    | some split =>
      have shorter := shorter_of_cut nonempty found
      have step : frames separator text =
          (split.1 :: (frames separator split.2).1, (frames separator split.2).2) := by
        rw [frames_eq nonempty, found]
      rw [frames_eq nonempty (text ++ more), cut_append found more]
      simp only [step, ih split.2.length (by omega) split.2 rfl, List.cons_append]

theorem frames_left (text : List α) : frames separator (frames separator text).2 = ([], (frames separator text).2) := by
  have whole := frames_append nonempty text []
  simp only [List.append_nil] at whole
  have first := congrArg Prod.fst whole
  have second := congrArg Prod.snd whole
  simp only [List.self_eq_append_right] at first
  exact Prod.ext first second.symm

/-- A text is its frames, each with a separator, and what is left. -/
theorem frames_join (text : List α) :
    text = ((frames separator text).1.map (· ++ separator)).flatten ++ (frames separator text).2 := by
  induction size : text.length using Nat.strongRecOn generalizing text with
  | ind length ih =>
    rw [frames_eq nonempty]
    cases found : cut separator text with
    | none => rfl
    | some split =>
      have shorter := shorter_of_cut nonempty found
      have rest := ih split.2.length (by omega) split.2 rfl
      simp only [List.map_cons, List.flatten_cons, List.append_assoc]
      rw [← List.append_assoc, ← rest]
      exact append_of_cut found

/-- A text without a separator has no frame. -/
theorem frames_of_absent {text : List α} (absent : ¬ separator <:+: text) :
    frames separator text = ([], text) := by
  rw [frames_eq nonempty, cut_eq_none absent]

theorem cut_isSome_of_infix {text : List α} (inside : separator <:+: text) : (cut separator text).isSome = true := by
  induction text with
  | nil => exact absurd (List.infix_nil.mp inside) nonempty
  | cons symbol rest ih =>
    rw [cut]
    split
    next => rfl
    next late =>
      rcases List.infix_cons_iff.mp inside with early | later
      · exact absurd early late
      · rw [Option.isSome_map]
        exact ih later

/-- What is left has no separator. -/
theorem left_absent (text : List α) : ¬ separator <:+: (frames separator text).2 := by
  intro inside
  have some := cut_isSome_of_infix nonempty inside
  have alone := frames_left nonempty text
  rw [frames_eq nonempty] at alone
  obtain ⟨split, found⟩ := Option.isSome_iff_exists.mp some
  rw [found] at alone
  cases congrArg Prod.fst alone

/-- The frames of a stream do not depend on how it was cut into pieces. -/
theorem feed_eq (buffer : List α) (waiting : frames separator buffer = ([], buffer)) (pieces : List (List α)) :
    feed separator buffer pieces = (frames separator (buffer ++ pieces.flatten)).1 := by
  induction pieces generalizing buffer with
  | nil => simp [feed, waiting]
  | cons piece rest ih =>
    rw [feed, ih _ (frames_left nonempty (buffer ++ piece)), List.flatten_cons, ← List.append_assoc,
      frames_append nonempty (buffer ++ piece)]

end RpaEnterprise.Lib.Framing
