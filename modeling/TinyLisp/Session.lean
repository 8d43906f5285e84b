/-
Sessions.

A session has one global environment, in which the primitives are bound and
every form is evaluated, so definitions persist. A text is read as a whole
before its first form is evaluated; a form that fails ends the text, and the
forms before it keep their effects. The host gives a session room for its limit
on nested calls, and never takes room back.

* `Session`: the store of environments, the guard on calls, and the room.
* `Session.start`: a new session with the room that its limit asks for.
* `Session.eval`, `Session.respond`: evaluating a text, and printing its last
  value, each with the log lines that it gives.
-/
import TinyLisp.Evaluation.Evaluate
import TinyLisp.Environment.Display
import TinyLisp.Form.Levels
import TinyLisp.Form.Reading
import TinyLisp.Settings

namespace TinyLisp

/-- A session: its environments, its guard on calls, and the room that the host gives it. -/
structure Session where
  store : Store
  guard : CallGuard
  room : Room

/-- An outcome with the session after it and the log lines before it. -/
structure Logged (α : Type) where
  outcome : Except Fault α
  session : Session
  log : List LogLine

namespace Session

/-- The number of the global environment. -/
def global : Nat := 0

/-! ### Starting -/

/-- The room that the host gives without being asked. -/
def leastRoom : Room := some 1000

/-- The largest room that a bounded host can give. -/
def largestRoom : Int := 2147483647

/-- The room that a limit on nested calls asks for: eight frames a call and some to spare. -/
def roomFor (limit : Int) : Int :=
  8 * limit + 200

/-- The room after a limit asked for its own. A host without a bound has it already; another one
may be unable to give it. -/
def enlarge (room : Room) (limit : Int) : Except Fault Room :=
  match room with
  | none => .ok none
  | some frames =>
    if roomFor limit ≤ frames then .ok (some frames)
    else if roomFor limit ≤ largestRoom then .ok (some (roomFor limit).toNat)
    else .error .roomSetting

/-- The store with the global environment, in which the primitives are bound. -/
def initialStore : Store :=
  (Store.empty.create none).2.register global

/-- A new session under a guard, in a host that already gives some room. -/
def start (guard : CallGuard) (room : Room) : Except Fault Session :=
  (enlarge room guard.limit).map fun room => ⟨initialStore, guard, room⟩

/-! ### Evaluating a text -/

/-- The forms of a text, if the host has room to read them. -/
def readWithin (room : Room) (source : String) : Except Fault (List Value) :=
  if room.fits (readLevels 0 (Token.ofSource source)) then (readAll source).mapError .read
  else .error .inputDepth

/-- The printed form of a value, if the host has room for two frames a level. -/
def printWithin (room : Room) (tooDeep : Fault) (v : Value) : Except Fault String :=
  if room.fits (2 * v.printLevels.1) then v.print.mapError .display
  else .error tooDeep

/-- The log lines that announce a form, when they are wanted. -/
def announce (s : Session) (debug : Bool) (form : Value) : Except Fault (List LogLine) :=
  if debug then
    (printWithin s.room .stackDepth form).map fun shown =>
      [⟨.debug, .session, "Evaluating " ++ shown⟩]
  else .ok []

/-- The number of times that an evaluation looked up the limit: once for each call. -/
def lookups (calls : List CallEvent) : Nat :=
  calls.countP fun
    | .entered _ | .refused _ => true
    | .left _ => false

/-- Evaluates a form in the global environment. -/
def evalForm (s : Session) (debug : Bool) (form : Value) : Logged Value :=
  match s.announce debug form with
  | .error f => ⟨.error f, s, []⟩
  | .ok announced =>
    let ⟨store, guard, room⟩ := s
    match runIn guard.limit room global form ⟨store, guard.depth, []⟩ with
    | .ok v m =>
      ⟨.ok v, ⟨m.store, { guard with depth := m.depth }, room⟩,
        announced ++ guard.log (lookups m.calls)⟩
    | .error f m =>
      ⟨.error f, ⟨m.store, { guard with depth := m.depth }, room⟩,
        announced ++ guard.log (lookups m.calls)⟩

/-- Evaluates forms in order up to the first that fails; the value is that of the last form, or
`last` when there is none. -/
def evalForms (s : Session) (debug : Bool) (last : Value) : List Value → Logged Value
  | [] => ⟨.ok last, s, []⟩
  | form :: rest =>
    match s.evalForm debug form with
    | ⟨.error f, s, log⟩ => ⟨.error f, s, log⟩
    | ⟨.ok v, s, log⟩ =>
      let after := evalForms s debug v rest
      { after with log := log ++ after.log }

theorem evalForms_of_ne_nil (s : Session) (debug : Bool) {forms : List Value} (hne : forms ≠ [])
    (last last' : Value) : s.evalForms debug last forms = s.evalForms debug last' forms := by
  cases forms with
  | nil => exact absurd rfl hne
  | cons form rest => rfl

/-- Evaluates every form of a text and gives the value of the last. Before the first form there is
no value; a text that is read has a form, so that this never comes out. -/
def eval (s : Session) (debug : Bool) (source : String) : Logged Value :=
  match readWithin s.room source with
  | .error f => ⟨.error f, s, []⟩
  | .ok forms => s.evalForms debug (.foreign .absent) forms

/-- Evaluates every form of a text and prints the value of the last. -/
def respond (s : Session) (debug : Bool) (source : String) : Logged String :=
  let after := s.eval debug source
  { after with outcome := after.outcome.bind (printWithin s.room .displayDepth) }

end Session

end TinyLisp
