/-
Open call frames.

The depth of a machine counts the call frames that are open. A frame is opened
around the body of a closure, below the limit only, and closed however the body
ends. So while a run goes on, the depth is that of its start and one more for each
body that is being evaluated; what happened to the call frames is a walk that
never falls below the start and rises no higher than the limit.

* `RunsInside`: a job that runs inside another one, and the number of bodies that
  are being evaluated there.
* `RunsInside.depth_eq`, `RunsInside.depth_le`: its depth.
* `Walks`: what can happen to call frames between two depths.
* `Evaluates.walked`: what a run does to call frames is a walk from its depth back
  to its depth.
* `Walks.moment`: the depth after each event of a walk.
* `call_depth_is_balanced` (**the depth of calls**).
-/
import TinyLisp.Proofs.Reachable

namespace TinyLisp

open Relation (ReflTransGen)

/-! ### Jobs inside a job -/

/-- Whether a job applies a value; the only job that it may start is the body of a closure. -/
def Job.isApplication : Job → Bool
  | .apply _ _ _ => true
  | _ => false

/-- A job runs inside another one, where so many bodies of closures are being evaluated. -/
inductive RunsInside (limit : Int) (c : Job × Machine) : ℕ → Job × Machine → Prop where
  | itself : RunsInside limit c 0 c
  | part {bodies c' c''} (h : RunsInside limit c bodies c') (hpart : c'.1.isApplication = false)
      (hstep : Invokes limit c' c'') : RunsInside limit c bodies c''
  | body {bodies c' c''} (h : RunsInside limit c bodies c') (hbody : c'.1.isApplication = true)
      (hstep : Invokes limit c' c'') : RunsInside limit c (bodies + 1) c''

section

variable {limit : Int} {c c' : Job × Machine} {bodies : ℕ}

/-- Every job that a job leads to runs inside it. -/
lemma exists_runsInside (h : ReflTransGen (Invokes limit) c c') :
    ∃ bodies, RunsInside limit c bodies c' := by
  induction h with
  | refl => exact ⟨0, .itself⟩
  | @tail c' c'' _ hstep ih =>
      obtain ⟨bodies, hinside⟩ := ih
      cases hjob : c'.1.isApplication with
      | false => exact ⟨bodies, hinside.part hjob hstep⟩
      | true => exact ⟨bodies + 1, hinside.body hjob hstep⟩

/-- A part of a job starts at the depth of the job, because the parts before it have closed their
call frames. -/
lemma Invokes.depth_eq_of_part (h : Invokes limit c c') (hpart : c.1.isApplication = false) :
    c'.2.depth = c.2.depth := by
  cases h with
  | special | head | define | letIn | sequence | condition | first | scopeBody | scopeValue => rfl
  | arguments _ _ hhead => exact hhead.depth_eq
  | application _ _ hhead _ hargs => exact hargs.depth_eq.trans hhead.depth_eq
  | branch _ hcond => exact hcond.depth_eq
  | rest hfirst => exact hfirst.depth_eq
  | scopeRest hvalue => exact hvalue.depth_eq
  | body => nomatch hpart

/-- A body starts one call frame deeper, which is not over the limit. -/
lemma Invokes.depth_of_body (h : Invokes limit c c') (hbody : c.1.isApplication = true) :
    c'.2.depth = c.2.depth + 1 ∧ (c'.2.depth : ℤ) ≤ limit := by
  cases h with
  | body _ hdepth => exact ⟨rfl, Int.add_one_le_of_lt hdepth⟩
  | special | head | define | letIn | sequence | condition | first | scopeBody | scopeValue
  | arguments | application | branch | rest | scopeRest => nomatch hbody

/-- **The depth inside a job** is its own depth and the number of bodies that are being
evaluated. -/
lemma RunsInside.depth_eq (h : RunsInside limit c bodies c') :
    c'.2.depth = c.2.depth + bodies := by
  induction h with
  | itself => rfl
  | part _ hpart hstep ih => rw [hstep.depth_eq_of_part hpart, ih]
  | body _ hbody hstep ih => rw [(hstep.depth_of_body hbody).1, ih, Nat.add_assoc]

lemma RunsInside.depth_le (h : RunsInside limit c bodies c') :
    (c'.2.depth : ℤ) ≤ max (c.2.depth : ℤ) limit := by
  induction h with
  | itself => exact le_max_left _ _
  | part _ hpart hstep ih => rwa [hstep.depth_eq_of_part hpart]
  | body _ hbody hstep _ => exact (hstep.depth_of_body hbody).2.trans (le_max_right _ _)

end

/-! ### What happens to call frames -/

namespace CallEvent

/-- The depth just after an event. -/
def depth : CallEvent → ℕ
  | entered depth | refused depth | left depth => depth

/-- The number of call frames that an event opens; closing one counts as minus one. -/
def opened : CallEvent → ℤ
  | entered _ => 1
  | refused _ => 0
  | left _ => -1

end CallEvent

/-- The number of call frames that are still open after some events. -/
def openFrames (events : List CallEvent) : ℤ :=
  (events.map CallEvent.opened).sum

/-- What can happen to call frames from one depth to another: a frame is opened below the limit, a
call is refused at the limit, and no frame below a base depth is closed. -/
inductive Walks (limit : Int) (base : ℕ) : ℕ → List CallEvent → ℕ → Prop where
  | stop (depth) : Walks limit base depth [] depth
  | enter {depth : ℕ} {events last} (hdepth : (depth : Int) < limit)
      (hrest : Walks limit base (depth + 1) events last) :
    Walks limit base depth (.entered (depth + 1) :: events) last
  | refuse {depth : ℕ} {events last} (hdepth : limit ≤ depth)
      (hrest : Walks limit base depth events last) :
    Walks limit base depth (.refused depth :: events) last
  | leave {depth : ℕ} {events last} (hdepth : base ≤ depth)
      (hrest : Walks limit base depth events last) :
    Walks limit base (depth + 1) (.left depth :: events) last

namespace Walks

variable {limit : Int} {base : ℕ}

lemma append {depth next last : ℕ} {events events' : List CallEvent}
    (h : Walks limit base depth events next) (h' : Walks limit base next events' last) :
    Walks limit base depth (events ++ events') last := by
  induction h with
  | stop => exact h'
  | enter hdepth _ ih => exact .enter hdepth (ih h')
  | refuse hdepth _ ih => exact .refuse hdepth (ih h')
  | leave hdepth _ ih => exact .leave hdepth (ih h')

/-- A walk above a base is one above every lower base. -/
lemma lower {base' depth last : ℕ} {events : List CallEvent}
    (h : Walks limit base depth events last) (hle : base' ≤ base) :
    Walks limit base' depth events last := by
  induction h with
  | stop depth => exact .stop depth
  | enter hdepth _ ih => exact .enter hdepth ih
  | refuse hdepth _ ih => exact .refuse hdepth ih
  | leave hdepth _ ih => exact .leave (hle.trans hdepth) ih

/-- **The moments of a walk**: after each event the depth is that of the start and the number of
call frames opened since, and it lies between the base and the limit. -/
theorem moment {depth last : ℕ} {before after : List CallEvent} {event : CallEvent}
    (h : Walks limit base depth (before ++ event :: after) last) (hbase : base ≤ depth)
    (hlimit : (depth : ℤ) ≤ max (base : ℤ) limit) :
    (event.depth : ℤ) = depth + openFrames (before ++ [event]) ∧ base ≤ event.depth ∧
      (event.depth : ℤ) ≤ max (base : ℤ) limit := by
  -- the events before this one move the depth that the rest of the walk starts at
  induction before generalizing depth with
  | nil =>
      cases h with
      | enter hdepth =>
          refine ⟨by simp [openFrames, CallEvent.depth, CallEvent.opened], ?_, ?_⟩
          · exact hbase.trans (Nat.le_succ _)
          · exact le_max_of_le_right (Int.add_one_le_of_lt hdepth)
      | refuse => exact ⟨by simp [openFrames, CallEvent.depth, CallEvent.opened], hbase, hlimit⟩
      | @leave depth _ _ hdepth =>
          refine ⟨by simp [openFrames, CallEvent.depth, CallEvent.opened], hdepth, ?_⟩
          exact le_trans (by simp [CallEvent.depth]) hlimit
  | cons first before ih =>
      have hopen (first : CallEvent) (rest : List CallEvent) :
          openFrames (first :: rest) = first.opened + openFrames rest := by
        simp [openFrames]
      rw [List.cons_append, hopen]
      cases h with
      | enter hdepth hrest =>
          obtain ⟨heq, hle⟩ := ih hrest (hbase.trans (Nat.le_succ _))
            (le_max_of_le_right (Int.add_one_le_of_lt hdepth))
          refine ⟨?_, hle⟩
          rw [heq, CallEvent.opened]
          push_cast
          ring
      | refuse _ hrest =>
          obtain ⟨heq, hle⟩ := ih hrest hbase hlimit
          exact ⟨by rw [heq, CallEvent.opened, zero_add], hle⟩
      | leave hdepth hrest =>
          obtain ⟨heq, hle⟩ := ih hrest hdepth (by push_cast at hlimit; omega)
          refine ⟨?_, hle⟩
          rw [heq, CallEvent.opened]
          push_cast
          ring

end Walks

/-! ### What a run does to call frames -/

/-- What happened to call frames between two machines is a walk. -/
def Machine.Walked (limit : Int) (base : ℕ) (m m' : Machine) : Prop :=
  ∃ events, m'.calls = events.reverse ++ m.calls ∧ Walks limit base m.depth events m'.depth

namespace Machine.Walked

variable {limit : Int} {base : ℕ} {m m' m'' : Machine}

lemma of_eq (hcalls : m'.calls = m.calls) (hdepth : m'.depth = m.depth) :
    m.Walked limit base m' := by
  refine ⟨[], hcalls, ?_⟩
  rw [hdepth]
  exact .stop m.depth

lemma trans (h : m.Walked limit base m') (h' : m'.Walked limit base m'') :
    m.Walked limit base m'' := by
  obtain ⟨events, hcalls, hwalk⟩ := h
  obtain ⟨events', hcalls', hwalk'⟩ := h'
  exact ⟨events ++ events', by simp [hcalls', hcalls], hwalk.append hwalk'⟩

lemma refuse (hdepth : limit ≤ m.depth) : m.Walked limit base m.refuse :=
  ⟨[.refused m.depth], rfl, .refuse hdepth (.stop _)⟩

/-- A call frame around what happens above it. -/
lemma frame (hdepth : (m.depth : Int) < limit) (hbase : base ≤ m.depth)
    (h : m.enter.Walked limit (base + 1) m') (hm : m'.depth = m.depth + 1) :
    m.Walked limit base m'.leave := by
  obtain ⟨events, hcalls, hwalk⟩ := h
  have hclosed : m'.depth - 1 = m.depth := by omega
  have hleave : Walks limit base m'.depth [.left m.depth] m.depth :=
    hm ▸ .leave hbase (.stop _)
  refine ⟨.entered (m.depth + 1) :: events ++ [.left m.depth], ?_, ?_⟩
  · simp [Machine.leave, hcalls, hclosed, Machine.enter]
  · rw [Machine.leave, hclosed]
    exact .enter hdepth ((hwalk.lower (Nat.le_succ base)).append hleave)

end Machine.Walked

/-- **What a run does to call frames** is a walk that closes no frame that was open before. -/
theorem Evaluates.walked {limit : Int} {job : Job} {m : Machine} {r : Outcome}
    (h : Evaluates limit job m r) : ∀ base ≤ m.depth, m.Walked limit base r.machine := by
  -- The walks of the parts follow on one another, for each part starts at the depth of the whole;
  -- the walk of a body stands between the opening and the closing of its call frame.
  induction h with
  | tooDeep | bound | unbound | constant | formTooDeep | nil | scopeName | primitiveTooDeep
  | arity | notCallable => exact fun _ _ => .of_eq rfl rfl
  | immediate | primitive =>
      rw [Outcome.machine_ofResult]
      exact fun _ _ => .of_eq rfl rfl
  | special _ _ _ _ ih | headFault _ _ _ ih | argumentsTooDeep _ _ _ _ ih | defineFault _ ih
  | sequence _ ih | sequenceFault _ ih | conditionFault _ _ ih | noBranch _ _ _ ih
  | firstFault _ ih | scopeBody _ _ ih | scopeFault _ ih => exact ih
  | define _ ih => exact fun base hbase => (ih base hbase).trans (.of_eq rfl rfl)
  | letIn _ _ ih =>
      exact fun base hbase => Machine.Walked.trans (.of_eq rfl rfl) (ih base hbase)
  | argumentsFault _ _ hprev _ _ ih₁ ih₂ | branch _ hprev _ _ ih₁ ih₂ | restFault hprev _ ih₁ ih₂
  | cons hprev _ ih₁ ih₂ =>
      exact fun base hbase => (ih₁ base hbase).trans (ih₂ base (hprev.depth_eq ▸ hbase))
  | scopeBinding hvalue _ ih₁ ih₂ =>
      intro base hbase
      have hrest := ih₂ base (hvalue.depth_eq ▸ hbase)
      exact ((ih₁ base hbase).trans (.of_eq rfl rfl)).trans hrest
  | application _ _ hhead _ hargs _ ih₁ ih₂ ih₃ =>
      intro base hbase
      have hbase₁ := hhead.depth_eq ▸ hbase
      exact ((ih₁ base hbase).trans (ih₂ base hbase₁)).trans (ih₃ base (hargs.depth_eq ▸ hbase₁))
  | refused _ hdepth =>
      exact fun base _ => Machine.Walked.trans (.of_eq rfl rfl) (.refuse hdepth)
  | @bodyTooDeep _ params _ env args m _ hdepth =>
      intro base hbase
      have hframe : (m.pushArguments env params args).Walked limit base
          (m.pushArguments env params args).enter.leave :=
        .frame hdepth hbase (.of_eq rfl rfl) rfl
      exact Machine.Walked.trans (.of_eq rfl rfl) hframe
  | @bodyFault _ params _ env args m _ m₁ _ hdepth _ hbody ih
  | @call _ params _ env args m _ m₁ _ hdepth _ hbody ih =>
      intro base hbase
      have hframe : (m.pushArguments env params args).Walked limit base m₁.leave :=
        .frame hdepth hbase (ih _ (Nat.succ_le_succ hbase)) hbody.depth_eq
      exact Machine.Walked.trans (.of_eq rfl rfl) hframe

/-! ### The depth of calls -/

/-- **The depth of calls.** An evaluation leaves the depth that it found. Every job that it leads to
starts and ends at the depth of the evaluation and one more for each body that is being evaluated
there, and between any two events of call frames the depth is that of the start and the number of
frames opened since; it never falls below the start and rises over it no higher than the limit. A
call with the wrong number of arguments changes nothing, so it opens no frame. And a text leaves
the guard of a session as it was, so a session that starts with no open frame has the whole budget
for each of its texts. -/
theorem call_depth_is_balanced (limit : Int) (room : Room) (env : ℕ) (e : Value) (m : Machine) :
    let start : Job × Machine := (.expr room env e, m)
    let final := Outcome.machine (runIn limit room env e m)
    final.depth = m.depth ∧
    (∀ job m', ReflTransGen (Invokes limit) start (job, m') →
      (∃ bodies, RunsInside limit start bodies (job, m')) ∧
      (∀ bodies, RunsInside limit start bodies (job, m') → m'.depth = m.depth + bodies) ∧
      (m'.depth : ℤ) ≤ max (m.depth : ℤ) limit ∧
      ∀ r, Evaluates limit job m' r → r.machine.depth = m'.depth) ∧
    (∃ events, final.calls = events.reverse ++ m.calls ∧
      ∀ before event after, events = before ++ event :: after →
        (event.depth : ℤ) = m.depth + openFrames (before ++ [event]) ∧
        m.depth ≤ event.depth ∧ (event.depth : ℤ) ≤ max (m.depth : ℤ) limit) ∧
    (∀ params body scope args m', params.length ≠ args.length →
      applyIn limit room (.closure params body scope) args m' =
        .error (.closureArity params.length args.length) m') ∧
    (∀ (s : Session) (debug : Bool) (source : String),
      (s.eval debug source).session.guard = s.guard ∧
      (s.respond debug source).session.guard = s.guard) ∧
    ∀ guard hostRoom s₀ s, Session.start guard hostRoom = .ok s₀ → guard.depth = 0 → s₀.Leads s →
      s.guard.depth = 0 ∧ budgetAt s.guard.limit s.guard.depth = guard.limit.toNat := by
  intro start final
  have hrun := evaluates_runIn limit room env e m
  refine ⟨hrun.depth_eq, fun job m' hreach => ?_, ?_, ?_, ?_, ?_⟩
  · -- a job inside runs in as many bodies as frames were opened on the way to it
    obtain ⟨bodies, hinside⟩ := exists_runsInside hreach
    exact ⟨⟨bodies, hinside⟩, fun _ h => h.depth_eq, hinside.depth_le, fun r hr => hr.depth_eq⟩
  · -- the events of the whole run are one walk, which passes through each of them
    obtain ⟨events, hcalls, hwalk⟩ := hrun.walked m.depth le_rfl
    refine ⟨events, hcalls, ?_⟩
    rintro before event after rfl
    exact hwalk.moment le_rfl (le_max_left _ _)
  · exact fun _ _ _ _ _ hlen => evaluates_apply_iff.mp (.arity hlen)
  · intro s debug source
    have hguard := (Session.eval_sameHost s debug source).guard
    exact ⟨hguard, hguard⟩
  · -- texts leave the guard of the session as it was
    intro guard hostRoom s₀ s hstart hdepth hleads
    obtain ⟨_, -, rfl⟩ := exists_of_map_eq_ok hstart
    have hguard : s.guard = guard := hleads.sameHost.guard
    rw [hguard]
    exact ⟨hdepth, by simp [budgetAt, hdepth]⟩

end TinyLisp
