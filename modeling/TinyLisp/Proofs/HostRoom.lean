/-
The room of the host.

The host decides how deep an evaluation may nest, and nothing else. What fits into
one room fits into a larger one, and a fault that the host has room to word is
worded alike where it has more.

* `Room.Le`: at least as much room.
* `Le.less`, `Le.fits`: less room is left inside, and what fits into a larger room.
* `Room.more`: the room that leaves a room inside some more frames.
* `Le.formFault`, `Le.notCallable`, `Le.immediate?`: faults and shapes of forms.
* `Le.roomForPrimitive`: what a primitive needs.
* `Room.Covers`: one room does for a run what another one did.
* `Fault.isExhaustion`: the faults of a host without room.
* `Evaluates.isExhaustion_eq_false`: without a bound no run ends with one of them.
-/
import TinyLisp.Proofs.LanguageFaults

namespace TinyLisp

namespace Room

/-- One room is at most as large as another; the one without a bound is the largest. -/
def Le : Room → Room → Prop
  | _, none => True
  | some left, some left' => left ≤ left'
  | none, some _ => False

variable {room room' : Room}

lemma le_none (room : Room) : room.Le none := by
  cases room <;> trivial

lemma Le.refl (room : Room) : room.Le room := by
  cases room with
  | none => trivial
  | some left => exact Nat.le_refl left

lemma Le.less (h : room.Le room') (frames : ℕ) : (room.less frames).Le (room'.less frames) := by
  cases room' with
  | none => exact le_none _
  | some left' =>
      cases room with
      | none => exact h.elim
      | some left => exact Nat.sub_le_sub_right h frames

/-- The room that leaves a room inside some more frames. -/
def more (room : Room) (frames : ℕ) : Room :=
  room.map (· + frames)

lemma less_more (room : Room) (frames extra : ℕ) :
    (room.more (frames + extra)).less frames = room.more extra := by
  cases room with
  | none => rfl
  | some left => simp [more, less, Nat.add_comm frames, ← Nat.add_assoc]

@[simp] lemma more_zero (room : Room) : room.more 0 = room := by
  cases room <;> rfl

lemma fits_more (room : Room) {frames extra : ℕ} (h : frames ≤ extra) :
    (room.more extra).fits frames = true := by
  cases room with
  | none => rfl
  | some left => simpa [more, Room.fits] using Nat.le_add_left_of_le h

lemma Le.fits (h : room.Le room') {frames : ℕ} (hfits : room.fits frames = true) :
    room'.fits frames = true := by
  cases room' with
  | none => rfl
  | some left' =>
      cases room with
      | none => exact h.elim
      | some left =>
          simp only [Room.fits, decide_eq_true_eq] at hfits ⊢
          exact hfits.trans h

/-! ### Faults -/

/-- A fault that is worded in one room is worded alike in a larger one. -/
lemma Le.faultWithin (h : room.Le room') {frames : Unit → ℕ} {fault : Unit → Fault}
    (hworded : room.faultWithin frames fault ≠ .stackDepth) :
    room'.faultWithin frames fault = room.faultWithin frames fault := by
  cases room with
  | none =>
      cases room' with
      | none => rfl
      | some left' => exact h.elim
  | some left =>
      rw [Room.faultWithin] at hworded ⊢
      have hfits : frames () ≤ left := by
        by_contra hlt
        exact hworded (if_neg hlt)
      cases room' with
      | none => rw [if_pos hfits, Room.faultWithin]
      | some left' => rw [if_pos hfits, Room.faultWithin, if_pos (hfits.trans h)]

lemma Le.formFault (h : room.Le room') {part : Value} {fault : String → FormFault}
    (hworded : room.formFault part fault ≠ .stackDepth) :
    room'.formFault part fault = room.formFault part fault :=
  h.faultWithin hworded

lemma Le.notCallable (h : room.Le room') {v : Value} (hworded : room.notCallable v ≠ .stackDepth) :
    room'.notCallable v = room.notCallable v :=
  h.faultWithin hworded

/-! ### Forms and primitives -/

lemma Le.paramNames (h : room.Le room') {params : List Value}
    (hworded : paramNames room params ≠ .error .stackDepth) :
    TinyLisp.paramNames room' params = TinyLisp.paramNames room params := by
  induction params with
  | nil => rfl
  | cons param rest ih =>
      cases param with
      | sym name =>
          rw [TinyLisp.paramNames, TinyLisp.paramNames, ih]
          intro hrest
          rw [TinyLisp.paramNames, hrest] at hworded
          exact hworded rfl
      | _ => exact congrArg Except.error (h.formFault fun hf => hworded (congrArg Except.error hf))

lemma Le.closureOf (h : room.Le room') {env : ℕ} {parts : List Value}
    (hworded : closureOf room env parts ≠ .error .stackDepth) :
    TinyLisp.closureOf room' env parts = TinyLisp.closureOf room env parts := by
  revert hworded
  unfold TinyLisp.closureOf
  split
  · intro hworded
    rw [h.paramNames fun hnames => hworded (by rw [hnames]; rfl)]
  · exact fun hworded =>
      congrArg Except.error (h.formFault fun hf => hworded (congrArg Except.error hf))
  · exact fun _ => rfl

/-- What a form without evaluated parts comes to is the same in a larger room. -/
lemma Le.immediate? (h : room.Le room') {env : ℕ} {form : SpecialForm} {parts : List Value}
    (hworded : form.immediate? room env parts ≠ some (.error .stackDepth)) :
    form.immediate? room' env parts = form.immediate? room env parts := by
  have hshown {part : Value} {fault : String → FormFault}
      (hne : some (Except.error (room.formFault part fault) : Except Fault Value) ≠
        some (.error .stackDepth)) :
      some (Except.error (room'.formFault part fault) : Except Fault Value) =
        some (.error (room.formFault part fault)) := by
    rw [h.formFault fun hf => hne (by rw [hf])]
  revert hworded
  unfold SpecialForm.immediate?
  split
  case h_2 | h_5 => exact hshown
  case h_11 =>
    exact fun hworded => congrArg some (h.closureOf fun hf => hworded (congrArg some hf))
  all_goals exact fun _ => rfl

/-- Whether there is room for some frames is all that asking for it comes to. -/
lemma needRoom_eq (room : Room) (frames : Unit → ℕ) :
    needRoom room frames = if room.fits (frames ()) then pure () else throw .stackDepth := by
  cases room with
  | none => rfl
  | some left =>
      rw [needRoom, inside]
      split <;> rfl

/-- What a primitive has room for in one room it has room for in a larger one. -/
lemma Le.roomForPrimitive (h : room.Le room') {p : Primitive} {args : List Value} {m : Machine}
    (hok : roomForPrimitive room p args m = .ok () m) :
    TinyLisp.roomForPrimitive room' p args m = .ok () m := by
  unfold TinyLisp.roomForPrimitive at hok ⊢
  split
  · next a b =>
      simp only [needRoom_eq] at hok ⊢
      have hfits : room.fits (2 + 3 * (a.equalLevels b).1) = true := by
        by_contra hnot
        rw [if_neg hnot] at hok
        nomatch hok
      rw [if_pos (h.fits hfits)]
      rfl
  · rfl

/-! ### One room for another -/

/-- A room does for a run with some result what another one did: it is the same room, or it is at
least as large and the run did not end because it lacked room. -/
def Covers (room' room : Room) (result : Except Fault Value) : Prop :=
  room' = room ∨ room.Le room' ∧ result ≠ .error .stackDepth

namespace Covers

variable {result : Except Fault Value}

lemma refl (room : Room) (result : Except Fault Value) : room.Covers room result := .inl rfl

lemma le (h : room'.Covers room result) : room.Le room' := by
  rcases h with rfl | ⟨hle, -⟩
  · exact .refl room'
  · exact hle

lemma less (h : room'.Covers room result) (frames : ℕ) :
    (room'.less frames).Covers (room.less frames) result :=
  h.imp (congrArg (Room.less · frames)) fun ⟨hle, hne⟩ => ⟨hle.less frames, hne⟩

/-- A part that comes to a value lacks no room. -/
lemma ok (h : room'.Covers room result) (v : Value) : room'.Covers room (.ok v) :=
  h.imp_right fun ⟨hle, _⟩ => ⟨hle, nofun⟩

/-- Only the same room does the same for a run that lacks room. -/
lemma eq_of_stackDepth (h : room'.Covers room (.error .stackDepth)) : room' = room :=
  h.resolve_right fun ⟨_, hne⟩ => hne rfl

lemma formFault {part : Value} {fault : String → FormFault}
    (h : room'.Covers room (.error (room.formFault part fault))) :
    room'.formFault part fault = room.formFault part fault := by
  rcases h with rfl | ⟨hle, hne⟩
  · rfl
  · exact hle.formFault fun hf => hne (congrArg Except.error hf)

lemma notCallable {v : Value} (h : room'.Covers room (.error (room.notCallable v))) :
    room'.notCallable v = room.notCallable v := by
  rcases h with rfl | ⟨hle, hne⟩
  · rfl
  · exact hle.notCallable fun hf => hne (congrArg Except.error hf)

lemma immediate? {env : ℕ} {form : SpecialForm} {parts : List Value}
    (h : room'.Covers room result) (himmediate : form.immediate? room env parts = some result) :
    form.immediate? room' env parts = some result := by
  rcases h with rfl | ⟨hle, hne⟩
  · exact himmediate
  · rw [hle.immediate? (himmediate ▸ fun heq => hne (Option.some.inj heq)), himmediate]

end Covers

end Room

/-! ### Room without a bound -/

/-- Whether a fault is that the host has no room: to evaluate, to read or to print. -/
def Fault.isExhaustion : Fault → Bool
  | stackDepth | inputDepth | displayDepth => true
  | _ => false

lemma Fault.isExhaustion_formFault (part : Value) (fault : String → FormFault) :
    (Room.formFault none part fault).isExhaustion = false := by
  rcases Room.formFault_cases none part fault with ⟨_, h⟩ | ⟨_, h⟩ | ⟨hroom, -⟩
  · rw [h]; rfl
  · rw [h]; rfl
  · exact absurd rfl hroom

/-- Without a bound every primitive has the room that it needs. -/
lemma roomForPrimitive_none (p : Primitive) (args : List Value) :
    roomForPrimitive none p args = pure () := by
  unfold roomForPrimitive
  split <;> rfl

/-- With room without a bound no job lacks room. -/
lemma Raises.isExhaustion_eq_false {limit : Int} {c : Job × Machine} {f : Fault}
    (h : Raises limit c f) (hroom : c.1.room = none) : f.isExhaustion = false := by
  cases h with
  | tooDeep hlacks | formTooDeep _ _ hlacks | argumentsTooDeep _ _ _ hlacks
  | bodyTooDeep _ _ hlacks =>
      obtain rfl := hroom
      nomatch hlacks
  | primitiveTooDeep hlacks =>
      obtain rfl := hroom
      rw [roomForPrimitive_none] at hlacks
      nomatch hlacks
  | shape h =>
      obtain rfl := hroom
      rcases SpecialForm.immediate?_error_cases h with ⟨g, rfl⟩ | ⟨part, fault, -, rfl⟩
      · rfl
      · exact Fault.isExhaustion_formFault part fault
  | scopeName =>
      obtain rfl := hroom
      exact Fault.isExhaustion_formFault _ _
  | @notCallable _ v =>
      obtain rfl := hroom
      rcases Room.notCallable_cases none v with ⟨_, h⟩ | ⟨_, h⟩ | ⟨hroom, -⟩
      · rw [h]; rfl
      · rw [h]; rfl
      · exact absurd rfl hroom
  | primitive _ h => rcases Primitive.apply_error_cases h with ⟨_, rfl⟩ | rfl | rfl <;> rfl
  | refused =>
      unfold depthFault
      split <;> rfl
  | unbound | arity => rfl

/-- **Without a bound** no run ends because the host has no room. -/
theorem Evaluates.isExhaustion_eq_false {limit : Int} {job : Job} {m : Machine} {r : Outcome}
    (h : Evaluates limit job m r) (hroom : job.room = none) {f : Fault}
    (hr : r.result = .error f) : f.isExhaustion = false := by
  obtain ⟨c, hreach, hraises⟩ := h.origin hr
  exact hraises.isExhaustion_eq_false (room_eq_none_of_reflTransGen hreach hroom)

end TinyLisp
