import Mathlib.Logic.Basic

/-!
# Programs in dialogue with their surroundings

A program that awaits other components is a dialogue: it asks a question, goes
on with whatever reply it gets, and ends with a value or an error.  Nothing is
assumed about who replies, so what holds of a dialogue for all replies holds
against every page, every model and every database.

`Guarantees` says which questions come up and how the dialogue ends when the
replies meet `rely`; it composes along `bind`.  `Concludes` relates how a dialogue
ends to what was said in it: notes are taken of every exchange, and the end is
judged by them.
-/

namespace RpaEnterprise.Lib

inductive Dialogue (Ask : Type) (Reply : Ask → Type) (Error Value : Type) where
  | done (value : Value)
  | fail (error : Error)
  | ask (question : Ask) (next : Reply question → Dialogue Ask Reply Error Value)

namespace Dialogue

variable {Ask : Type} {Reply : Ask → Type} {Error Other Value Result : Type}

def bind (dialogue : Dialogue Ask Reply Error Value)
    (rest : Value → Dialogue Ask Reply Error Result) : Dialogue Ask Reply Error Result :=
  match dialogue with
  | .done value => rest value
  | .fail error => .fail error
  | .ask question next => .ask question fun reply => (next reply).bind rest

instance : Monad (Dialogue Ask Reply Error) where
  pure := .done
  bind := bind

/-- One question, with its reply as the value. -/
def perform (question : Ask) : Dialogue Ask Reply Error (Reply question) :=
  .ask question .done

/-- A computation that asks nothing. -/
def lift : Except Error Value → Dialogue Ask Reply Error Value
  | .ok value => .done value
  | .error error => .fail error

/-- `await` of a component that may throw, with its errors as errors of the dialogue. -/
def awaitOr {Message : Type} (wrap : Message → Error)
    (reply : Dialogue Ask Reply Error (Except Message Value)) : Dialogue Ask Reply Error Value :=
  reply.bind fun
    | .ok value => .done value
    | .error message => .fail (wrap message)

/-- `try … catch (error) …`. -/
def recover (dialogue : Dialogue Ask Reply Error Value)
    (handler : Error → Dialogue Ask Reply Other Value) : Dialogue Ask Reply Other Value :=
  match dialogue with
  | .done value => .done value
  | .fail error => handler error
  | .ask question next => .ask question fun reply => (next reply).recover handler

/-- A dialogue with one component as part of a dialogue with several. -/
def embed {Inner : Type} (inject : Inner → Ask)
    (dialogue : Dialogue Inner (fun question => Reply (inject question)) Error Value) :
    Dialogue Ask Reply Error Value :=
  match dialogue with
  | .done value => .done value
  | .fail error => .fail error
  | .ask question next => .ask (inject question) fun reply => (next reply).embed inject

/-- The dialogue against surroundings with a state of their own. -/
def run {World : Type} (answer : World → (question : Ask) → Reply question × World)
    (dialogue : Dialogue Ask Reply Error Value) (world : World) : Except Error Value × World :=
  match dialogue with
  | .done value => (.ok value, world)
  | .fail error => (.error error, world)
  | .ask question next =>
    let (reply, world) := answer world question
    (next reply).run answer world

theorem run_bind {World : Type} (answer : World → (question : Ask) → Reply question × World)
    (dialogue : Dialogue Ask Reply Error Value) (rest : Value → Dialogue Ask Reply Error Result)
    (world : World) :
    (dialogue >>= rest).run answer world =
      match dialogue.run answer world with
      | (.ok value, world) => (rest value).run answer world
      | (.error error, world) => (.error error, world) := by
  change (dialogue.bind rest).run answer world = _
  induction dialogue generalizing world with
  | done value => rfl
  | fail error => rfl
  | ask question next ih =>
    rw [Dialogue.bind, run, run]
    exact ih _ _

structure Exchange (Reply : Ask → Type) where
  question : Ask
  reply : Reply question

/-- What is said between the dialogue and its surroundings, and how it ends. -/
def transcript {World : Type} (answer : World → (question : Ask) → Reply question × World)
    (dialogue : Dialogue Ask Reply Error Value) (world : World) :
    List (Exchange Reply) × Except Error Value :=
  match dialogue with
  | .done value => ([], .ok value)
  | .fail error => ([], .error error)
  | .ask question next =>
    let (reply, world) := answer world question
    let (rest, ending) := (next reply).transcript answer world
    (⟨question, reply⟩ :: rest, ending)

/-- Whatever the replies, the end meets `post` with the notes taken on the way. -/
def Concludes {Note : Type} (note : Exchange Reply → Note → Note)
    (post : Note → Except Error Value → Prop) : Dialogue Ask Reply Error Value → Note → Prop
  | .done value, notes => post notes (.ok value)
  | .fail error, notes => post notes (.error error)
  | .ask question next, notes => ∀ reply, (next reply).Concludes note post (note ⟨question, reply⟩ notes)

/-- The values a dialogue can end with while the replies meet `rely`. -/
inductive Returns (rely : (question : Ask) → Reply question → Prop) :
    Dialogue Ask Reply Error Value → Value → Prop
  | done {value : Value} : Returns rely (.done value) value
  | later {question : Ask} {value : Value} {reply : Reply question}
      {next : Reply question → Dialogue Ask Reply Error Value}
      (given : rely question reply) (returns : Returns rely (next reply) value) :
      Returns rely (.ask question next) value

/-- While the replies meet `rely`, only questions that `may` be asked come up,
and a value the dialogue ends with meets `post`. -/
def Guarantees (rely : (question : Ask) → Reply question → Prop) (may : Ask → Prop)
    (post : Value → Prop) : Dialogue Ask Reply Error Value → Prop
  | .done value => post value
  | .fail _ => True
  | .ask question next =>
    may question ∧ ∀ reply, rely question reply → Guarantees rely may post (next reply)

section Rules

variable {rely : (question : Ask) → Reply question → Prop} {may : Ask → Prop}
  {post : Value → Prop} {after : Result → Prop}

/-! ### What always holds -/

theorem Guarantees.bind {dialogue : Dialogue Ask Reply Error Value}
    {rest : Value → Dialogue Ask Reply Error Result}
    (first : dialogue.Guarantees rely may post)
    (second : ∀ value, post value → (rest value).Guarantees rely may after) :
    (dialogue >>= rest).Guarantees rely may after := by
  change (dialogue.bind rest).Guarantees rely may after
  induction dialogue with
  | done value => exact second value first
  | fail error => trivial
  | ask question next ih =>
    exact ⟨first.1, fun reply given => ih reply (first.2 reply given)⟩

end Rules

/-! ### How a dialogue ends -/

section Notes

variable {Note : Type} {note : Exchange Reply → Note → Note} {post : Note → Except Error Value → Prop}
  {after : Note → Except Error Result → Prop}

/-- The end of the first part is the end of the whole, or its value goes on. -/
def Onward (note : Exchange Reply → Note → Note) (after : Note → Except Error Result → Prop)
    (rest : Value → Dialogue Ask Reply Error Result) (notes : Note) : Except Error Value → Prop
  | .ok value => (rest value).Concludes note after notes
  | .error error => after notes (.error error)

theorem Concludes.bind {dialogue : Dialogue Ask Reply Error Value}
    {rest : Value → Dialogue Ask Reply Error Result} {notes : Note}
    (first : dialogue.Concludes note (Onward note after rest) notes) :
    (dialogue >>= rest).Concludes note after notes := by
  change (dialogue.bind rest).Concludes note after notes
  induction dialogue generalizing notes with
  | done value => exact first
  | fail error => exact first
  | ask question next ih => exact fun reply => ih reply (first reply)

theorem Concludes.mono {dialogue : Dialogue Ask Reply Error Value} {notes : Note}
    {weaker : Note → Except Error Value → Prop} (holds : dialogue.Concludes note post notes)
    (imply : ∀ notes ending, post notes ending → weaker notes ending) :
    dialogue.Concludes note weaker notes := by
  induction dialogue generalizing notes with
  | done value => exact imply _ _ holds
  | fail error => exact imply _ _ holds
  | ask question next ih => exact fun reply => ih reply (holds reply)

theorem Concludes.recover {dialogue : Dialogue Ask Reply Error Value}
    {handler : Error → Dialogue Ask Reply Other Value} {notes : Note}
    {caught : Note → Except Other Value → Prop}
    (holds : dialogue.Concludes note
      (fun notes ending =>
        match ending with
        | .ok value => caught notes (.ok value)
        | .error error => (handler error).Concludes note caught notes) notes) :
    (dialogue.recover handler).Concludes note caught notes := by
  induction dialogue generalizing notes with
  | done value => exact holds
  | fail error => exact holds
  | ask question next ih => exact fun reply => ih reply (holds reply)

theorem Concludes.embed {Inner : Type} {inject : Inner → Ask}
    {dialogue : Dialogue Inner (fun question => Reply (inject question)) Error Value} {notes : Note}
    (holds : dialogue.Concludes (fun exchange => note ⟨inject exchange.question, exchange.reply⟩) post notes) :
    (dialogue.embed inject).Concludes note post notes := by
  induction dialogue generalizing notes with
  | done value => exact holds
  | fail error => exact holds
  | ask question next ih => exact fun reply => ih reply (holds reply)

/-- A dialogue that says nothing of note. -/
theorem Concludes.quiet {may : Ask → Prop} {dialogue : Dialogue Ask Reply Error Value} {notes : Note}
    (guarantees : dialogue.Guarantees (fun _ _ => True) may fun _ => True)
    (unnoted : ∀ question reply notes, may question → note ⟨question, reply⟩ notes = notes)
    (ends : ∀ ending, post notes ending) : dialogue.Concludes note post notes := by
  induction dialogue with
  | done value => exact ends _
  | fail error => exact ends _
  | ask question next ih =>
    intro reply
    rw [unnoted question reply notes guarantees.1]
    exact ih reply (guarantees.2 reply trivial)

/-- Nothing of note is said before `rest`. -/
theorem Concludes.quiet_bind {may : Ask → Prop} {dialogue : Dialogue Ask Reply Error Value}
    {rest : Value → Dialogue Ask Reply Error Result} {notes : Note}
    (guarantees : dialogue.Guarantees (fun _ _ => True) may fun _ => True)
    (unnoted : ∀ question reply notes, may question → note ⟨question, reply⟩ notes = notes)
    (stops : ∀ error, after notes (.error error))
    (continues : ∀ value, (rest value).Concludes note after notes) :
    (dialogue >>= rest).Concludes note after notes := by
  refine Concludes.bind (Concludes.quiet guarantees unnoted fun ending => ?_)
  cases ending with
  | ok value => exact continues value
  | error error => exact stops error

theorem Concludes.transcript {World : Type} {dialogue : Dialogue Ask Reply Error Value} {notes : Note}
    (holds : dialogue.Concludes note post notes)
    (answer : World → (question : Ask) → Reply question × World) (world : World) :
    post ((dialogue.transcript answer world).1.foldl (fun notes exchange => note exchange notes) notes)
      (dialogue.transcript answer world).2 := by
  induction dialogue generalizing notes world with
  | done value => exact holds
  | fail error => exact holds
  | ask question next ih => exact ih _ (holds _) _

end Notes

end Dialogue

end RpaEnterprise.Lib
