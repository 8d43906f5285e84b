/-
The guard on nested calls while its limit changes.

A host opens and closes frames one inside the other, and changes the limit at
any time, by setting one or by the setting that a limit is read from. The limit
counts only when a frame is to be opened: then the depth must be below the limit
in effect. So the depth is the number of open frames at every moment, it may be
above the limit after this was lowered, and even then the open frames can be
closed one after the other.

* `EffectiveLimit`: the limit in effect, `effectiveLimit_iff` that it is the one
  that the guard looks up.
* `GuardStep`, `Guarded`: what a host does, and a guard with its open frames.
* `Guarded.Allows`, `Guarded.after`, `Guarded.Leads`: one step and many;
  `Guarded.leads_leave` for closing frames.
* `Guarded.Counts`, `Guarded.Leads.counts`: the depth counts the open frames.
* `Guarded.Counts.enter_of_lt`, `Guarded.Counts.enter_of_le`: opening a frame
  below the limit, and at the limit or above.
* `guard_counts_open_frames` (**changing limits**).
-/
import TinyLisp.Proofs.Origins
import TinyLisp.Proofs.Showing

namespace TinyLisp

/-! ### The limit in effect -/

/-- The limit in effect: the one that was set, whatever it is; else the positive number that the
setting spells; else 500. -/
inductive EffectiveLimit : Option ℤ → Option String → ℤ → Prop
  | override (limit : ℤ) (setting : Option String) : EffectiveLimit (some limit) setting limit
  | spelled {raw limit} (h : Spells raw limit) (hpos : 0 < limit) :
      EffectiveLimit none (some raw) limit
  | default {setting} (h : ∀ raw ∈ setting, ∀ n, Spells raw n → n ≤ 0) :
      EffectiveLimit none setting 500

lemma exists_effectiveLimit (override : Option ℤ) (setting : Option String) :
    ∃ limit, EffectiveLimit override setting limit := by
  cases override with
  | some limit => exact ⟨limit, .override limit setting⟩
  | none =>
      by_cases hspelled : ∃ raw ∈ setting, ∃ n, Spells raw n ∧ 0 < n
      · obtain ⟨raw, rfl, n, hn, hpos⟩ := hspelled
        exact ⟨n, .spelled hn hpos⟩
      · exact ⟨500, .default fun raw hraw n hn =>
          Int.not_lt.mp fun hpos => hspelled ⟨raw, hraw, n, hn, hpos⟩⟩

/-- **The limit in effect** is the one that a guard looks up. -/
theorem effectiveLimit_iff {g : CallGuard} {limit : ℤ} :
    EffectiveLimit g.override g.setting limit ↔ g.limit = limit := by
  have hlookup {limit : ℤ} (h : EffectiveLimit g.override g.setting limit) : g.limit = limit := by
    obtain ⟨depth, override, setting⟩ := g
    cases h with
    | override => rfl
    | spelled h hpos => rw [CallGuard.limit, Option.getD_none, depthSetting_of_pos h hpos]
    | default h =>
        cases setting with
        | none => rfl
        | some raw => exact depthSetting_fst_of_nonpos (h raw rfl)
  refine ⟨hlookup, ?_⟩
  rintro rfl
  obtain ⟨limit, h⟩ := exists_effectiveLimit g.override g.setting
  rwa [hlookup h]

/-! ### What a host does -/

/-- What a host does with a guard. -/
inductive GuardStep where
  /-- Opens a frame, unless the guard refuses. -/
  | enter
  /-- Closes the newest frame. -/
  | leave
  /-- Sets a limit, or takes it back. -/
  | setLimit (override : Option ℤ)
  /-- Changes the setting, or removes it. -/
  | changeSetting (setting : Option String)

/-- A guard and its open frames, the newest first, each by the depth that it was opened with. -/
structure Guarded where
  guard : CallGuard
  frames : List ℕ

namespace Guarded

/-- A guard under some setting before any frame is opened. -/
def start (setting : Option String) : Guarded :=
  ⟨.ofSetting setting, []⟩

/-- Only an open frame can be closed, and a limit that is set has no more digits than can be
shown. -/
def Allows (s : Guarded) : GuardStep → Prop
  | .leave => s.frames ≠ []
  | .setLimit (some limit) => (Nat.toDigits 10 limit.natAbs).length ≤ Text.digitLimit
  | .enter | .setLimit none | .changeSetting _ => True

/-- The guard and its open frames after one step. -/
def after (s : Guarded) : GuardStep → Guarded
  | .enter =>
    match s.guard.enter with
    | .ok g => ⟨g, g.depth :: s.frames⟩
    | .error _ => s
  | .leave => ⟨s.guard.leave, s.frames.tail⟩
  | .setLimit override => { s with guard := { s.guard with override } }
  | .changeSetting setting => { s with guard := { s.guard with setting } }

/-- Some steps lead from one state to another. -/
inductive Leads : Guarded → List GuardStep → Guarded → Prop
  | nil (s) : Leads s [] s
  | snoc {s steps s' step} (h : Leads s steps s') (hstep : s'.Allows step) :
      Leads s (steps ++ [step]) (s'.after step)

/-- **Open frames can be closed**, whatever the limit. -/
theorem leads_leave {s : Guarded} {k : ℕ} (hk : k ≤ s.frames.length) :
    s.Leads (List.replicate k .leave)
      ⟨{ s.guard with depth := s.guard.depth - k }, s.frames.drop k⟩ := by
  induction k with
  | zero => exact .nil s
  | succ k ih =>
      have hopen :
          Allows ⟨{ s.guard with depth := s.guard.depth - k }, s.frames.drop k⟩ .leave := by
        rw [Allows, Ne, List.drop_eq_nil_iff]
        omega
      have hnext := (ih (by omega)).snoc hopen
      rw [← List.replicate_succ'] at hnext
      simpa only [after, CallGuard.leave, List.tail_drop, Nat.sub_sub] using hnext

/-! ### The depth counts the open frames -/

/-- The depth is the number of open frames, each of which was opened with its own depth, and a
limit that was set can be shown. -/
structure Counts (s : Guarded) : Prop where
  depth_eq : s.guard.depth = s.frames.length
  frames_eq : s.frames = (List.range' 1 s.frames.length).reverse
  shown : ∀ limit, s.guard.override = some limit → (Text.decimal? limit).isSome

namespace Counts

variable {s : Guarded}

lemma start (setting : Option String) : (Guarded.start setting).Counts :=
  ⟨rfl, rfl, nofun⟩

/-- The limit in effect can be shown. -/
lemma shown_limit (hs : s.Counts) : (Text.decimal? s.guard.limit).isSome := by
  rw [CallGuard.limit]
  cases hoverride : s.guard.override with
  | none => exact isSome_decimal?_depthSetting s.guard.setting
  | some limit => exact hs.shown limit hoverride

/-- **Below the limit** a frame is opened with the next depth. -/
theorem enter_of_lt (hlt : (s.guard.depth : ℤ) < s.guard.limit) :
    s.guard.enter = .ok { s.guard with depth := s.guard.depth + 1 } := by
  rw [CallGuard.enter, (openFrame_eq_ok_iff _ _ _).mpr ⟨hlt, rfl⟩]
  rfl

/-- **At the limit or above** no frame is opened, and the fault names the limit. -/
theorem enter_of_le (hs : s.Counts) (hle : s.guard.limit ≤ s.guard.depth) :
    s.guard.enter = .error (.callDepth s.guard.limit) := by
  rw [CallGuard.enter, openFrame, if_pos hle, depthFault_eq hs.shown_limit]
  rfl

lemma after_enter_of_lt (hlt : (s.guard.depth : ℤ) < s.guard.limit) :
    s.after .enter =
      ⟨{ s.guard with depth := s.guard.depth + 1 }, (s.guard.depth + 1) :: s.frames⟩ := by
  rw [after, enter_of_lt hlt]

lemma after_enter_of_le (hs : s.Counts) (hle : s.guard.limit ≤ s.guard.depth) :
    s.after .enter = s := by
  rw [after, hs.enter_of_le hle]

/-- One step keeps the count. -/
lemma step (hs : s.Counts) {step : GuardStep} (hstep : s.Allows step) : (s.after step).Counts := by
  cases step with
  | enter =>
      rcases lt_or_ge (s.guard.depth : ℤ) s.guard.limit with hlt | hle
      · rw [after_enter_of_lt hlt]
        refine ⟨congrArg (· + 1) hs.depth_eq, ?_, hs.shown⟩
        rw [List.length_cons, List.range'_1_concat, List.reverse_append, ← hs.frames_eq,
          hs.depth_eq, Nat.add_comm]
        rfl
      · rwa [hs.after_enter_of_le hle]
  | leave =>
      obtain ⟨d, rest, hframes⟩ := List.exists_cons_of_ne_nil hstep
      have hdepth := hs.depth_eq
      have hall := hs.frames_eq
      rw [hframes, List.length_cons] at hdepth hall
      rw [List.range'_1_concat, List.reverse_append] at hall
      refine ⟨?_, ?_, hs.shown⟩
      · rw [after, CallGuard.leave, hframes, hdepth]
        rfl
      · rw [after, hframes]
        exact (List.cons.inj hall).2
  | setLimit override =>
      refine ⟨hs.depth_eq, hs.frames_eq, fun limit hlimit => ?_⟩
      obtain rfl : override = some limit := hlimit
      exact (Text.decimalWithin?_isSome_iff (by decide) limit).mpr hstep
  | changeSetting setting => exact ⟨hs.depth_eq, hs.frames_eq, hs.shown⟩

end Counts

/-- **The depth counts the open frames** after all steps. -/
theorem Leads.counts {s s' : Guarded} {steps : List GuardStep} (h : s.Leads steps s')
    (hs : s.Counts) : s'.Counts := by
  induction h with
  | nil => exact hs
  | snoc _ hstep ih => exact ih.step hstep

end Guarded

/-- **Changing limits.** After any steps of a host, the depth is the number of open frames, which
were opened with the depths from one on, and closing one takes exactly one away. A frame is opened
if and only if the depth is below the limit in effect, then with the next depth, which is not above
this limit; otherwise the fault names the limit, and nothing changes. Whatever limit and setting
take the place of the present ones, a limit that is not above the depth refuses every frame, and
all open frames can be closed one after the other. -/
theorem guard_counts_open_frames {setting : Option String} {steps : List GuardStep} {s : Guarded}
    (hleads : (Guarded.start setting).Leads steps s) :
    let limit := s.guard.limit
    (s.guard.depth = s.frames.length ∧ s.frames = (List.range' 1 s.frames.length).reverse ∧
      (s.frames ≠ [] → (s.guard.leave.depth : ℤ) = s.guard.depth - 1)) ∧
    (∀ n, EffectiveLimit s.guard.override s.guard.setting n ↔ limit = n) ∧
    ((s.guard.depth : ℤ) < limit →
      s.guard.enter = .ok { s.guard with depth := s.guard.depth + 1 } ∧
        (s.guard.depth : ℤ) + 1 ≤ limit) ∧
    (limit ≤ s.guard.depth →
      s.guard.enter = .error (.callDepth limit) ∧ s.after .enter = s ∧
        (Fault.callDepth limit).kind = .recursion ∧ (Fault.callDepth limit).message? =
          some ("Maximum call depth of " ++ String.ofList (Text.decimal limit) ++ " exceeded")) ∧
    ∀ override setting',
      (∀ n, override = some n → (Nat.toDigits 10 n.natAbs).length ≤ Text.digitLimit) →
      let s' : Guarded := ⟨⟨s.guard.depth, override, setting'⟩, s.frames⟩
      s.Leads [.setLimit override, .changeSetting setting'] s' ∧
        (s'.guard.limit ≤ s.guard.depth →
          s'.guard.enter = .error (.callDepth s'.guard.limit) ∧ s'.after .enter = s') ∧
        ∀ k ≤ s.frames.length, s'.Leads (List.replicate k .leave)
          ⟨{ s'.guard with depth := s.guard.depth - k }, s.frames.drop k⟩ := by
  intro limit
  -- the count of the open frames is kept by every step, whatever the limit was
  have hs : s.Counts := hleads.counts (.start setting)
  refine ⟨⟨hs.depth_eq, hs.frames_eq, fun hopen => ?_⟩, fun n => effectiveLimit_iff,
    fun hlt => ⟨Guarded.Counts.enter_of_lt hlt, hlt⟩,
    fun hle => ⟨hs.enter_of_le hle, hs.after_enter_of_le hle, rfl, rfl⟩,
    fun override setting' hshown => ?_⟩
  · -- a frame is open, so the depth is above zero and the subtraction takes one away
    have hpos := List.length_pos_of_ne_nil hopen
    have hdepth := hs.depth_eq
    have hleave : s.guard.leave.depth = s.guard.depth - 1 := rfl
    omega
  · -- the limit and the setting change by two steps, after which the count still holds
    intro s'
    have hallows : s.Allows (.setLimit override) := by
      cases override with
      | none => trivial
      | some n => exact hshown n rfl
    have hchanged : s.Leads [.setLimit override, .changeSetting setting'] s' :=
      .snoc (.snoc (.nil s) hallows) trivial
    have hs' : s'.Counts := hchanged.counts hs
    exact ⟨hchanged, fun hle => ⟨hs'.enter_of_le hle, hs'.after_enter_of_le hle⟩,
      fun k hk => Guarded.leads_leave (s := s') hk⟩

/-- Two frames are opened up to the limit of a setting, and a limit below zero is set. -/
theorem lowered_limit_closes_frames :
    let s : Guarded := ⟨⟨2, none, some "2"⟩, [2, 1]⟩
    (Guarded.start (some "2")).Leads [.enter, .enter] s ∧
      s.guard.enter = .error (.callDepth 2) ∧
      ∃ s', s.Leads [.setLimit (some (-1)), .changeSetting (some "2")] s' ∧
        s'.guard.enter = .error (.callDepth (-1)) ∧
        s'.Leads [.leave, .leave] ⟨⟨0, some (-1), some "2"⟩, []⟩ := by
  intro s
  have henter (s : Guarded) : s.Allows .enter := trivial
  have hleads : (Guarded.start (some "2")).Leads [.enter, .enter] s :=
    .snoc (.snoc (.nil _) (henter _)) (henter _)
  obtain ⟨-, -, -, hrefused, hchanged⟩ := guard_counts_open_frames hleads
  have hdigits : ∀ n, some (-1 : ℤ) = some n →
      (Nat.toDigits 10 n.natAbs).length ≤ Text.digitLimit := by
    rintro n hn
    obtain rfl := Option.some.inj hn
    decide
  obtain ⟨hlowered, hnone, hclosed⟩ := hchanged (some (-1)) (some "2") hdigits
  exact ⟨hleads, (hrefused (by decide)).1, _, hlowered, (hnone (by decide)).1,
    hclosed 2 (by decide)⟩

end TinyLisp
