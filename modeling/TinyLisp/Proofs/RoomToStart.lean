/-
Room to start a session.

A new session asks the host for room for its limit on nested calls. It gets that
room, or keeps the larger room that is there already, unless the limit asks for
more than a host can have: then there is no session. So a setting lets a session
start unless its text is a numeral above the largest limit whose room the host
can have; every other text gives a limit within it.

* `lt_depthSetting_iff`: the settings that give a limit above the default one.
* `Session.enlarge_ok`, `Session.enlarge_error_iff`: the room that a limit gets,
  and the limits that get none.
* `Session.initialStore_bindings`: the primitives, bound in a new session.
* `session_starts_unless_setting_is_too_large` (**settings that let a session
  start**).
-/
import TinyLisp.Proofs.EnvironmentTree

namespace TinyLisp

/-! ### Settings above the default limit -/

/-- A limit above the default one is that of a numeral: every other setting gives the default. -/
lemma lt_depthSetting_iff {setting : Option String} {bound : ℤ} (hbound : defaultDepth ≤ bound) :
    bound < (depthSetting setting).1 ↔
      ∃ raw n, setting = some raw ∧ Text.signedNumeral? (Text.strip raw.toList) = some n ∧
        bound < n := by
  have hdefault : ¬ bound < defaultDepth := Int.not_lt.mpr hbound
  cases setting with
  | none => simp [depthSetting, hdefault]
  | some raw =>
      by_cases hempty : raw = ""
      · subst hempty
        have hnone : Text.signedNumeral? (Text.strip []) = none := rfl
        simp [depthSetting, hdefault, hnone]
      cases hnumeral : Text.signedNumeral? (Text.strip raw.toList) with
      | none => simp [depthSetting, hempty, hnumeral, hdefault]
      | some n =>
          have hpos := defaultDepth_pos
          by_cases hn : n ≤ 0
          · have hnot : ¬ bound < n := by omega
            simp [depthSetting, hempty, hnumeral, hn, hdefault, hnot]
          · simp [depthSetting, hempty, hnumeral, hn]

namespace Session

/-! ### The room of a limit -/

section

variable {frames : ℕ} {limit : ℤ}

/-- A limit gets the room that it asks for, and none is taken back. -/
lemma enlarge_ok {room : Room} (h : enlarge (some frames) limit = .ok room) :
    ∃ left : ℕ, room = some left ∧ roomFor limit ≤ left ∧ frames ≤ left := by
  rw [enlarge] at h
  split_ifs at h with henough hhost
  · exact ⟨frames, (Except.ok.inj h).symm, henough, le_rfl⟩
  · exact ⟨(roomFor limit).toNat, (Except.ok.inj h).symm, Int.self_le_toNat _, by omega⟩

/-- A limit gets no room when it asks for more than there is and more than a host can have. -/
lemma enlarge_error_iff {f : Fault} :
    enlarge (some frames) limit = .error f ↔
      f = .roomSetting ∧ max (frames : ℤ) largestRoom < roomFor limit := by
  rw [enlarge, max_lt_iff]
  split_ifs with henough hhost
  · simp [henough]
  · simp [hhost]
  · have hmore : (frames : ℤ) < roomFor limit ∧ largestRoom < roomFor limit := by omega
    simp [hmore, eq_comm]

end

/-! ### A new session -/

lemma start_error_iff {guard : CallGuard} {frames : ℕ} {f : Fault} :
    start guard (some frames) = .error f ↔
      f = .roomSetting ∧ max (frames : ℤ) largestRoom < roomFor guard.limit := by
  rw [← enlarge_error_iff, start]
  cases enlarge (some frames) guard.limit <;> simp [Except.map]

/-- The global environment of a new session binds the primitives, and nothing else. -/
lemma initialStore_bindings :
    initialStore.bindings global = Primitive.all.map fun p => (p.name, .builtin p) := by
  rfl

end Session

open Session

/-- **Settings that let a session start.** When the host has the room that the limit asks for, or
can have it, there is a new session under that limit, in which the primitives are bound, and that
room holds in all of its states; no room is taken back. Otherwise there is none. In a host that has
no more room than it can be asked for, these are the settings whose text is a numeral of too large a
limit; every other text lets a session start. -/
theorem session_starts_unless_setting_is_too_large (setting : Option String) (frames : ℕ) :
    let guard : CallGuard := .ofSetting setting
    let started := Session.start guard (some frames)
    (8 * guard.limit + 200 ≤ max (frames : ℤ) largestRoom →
      ∃ s, started = .ok s ∧ s.guard = guard ∧
        s.store.bindings global = Primitive.all.map (fun p => (p.name, .builtin p)) ∧
        ∀ s', s.Leads s' → ∃ left : ℕ, s'.room = some left ∧
          8 * s'.guard.limit + 200 ≤ left ∧ frames ≤ left) ∧
    (max (frames : ℤ) largestRoom < 8 * guard.limit + 200 → started = .error .roomSetting) ∧
    ((frames : ℤ) ≤ largestRoom → (started = .error .roomSetting ↔
      ∃ raw n, setting = some raw ∧ Text.signedNumeral? (Text.strip raw.toList) = some n ∧
        largestRoom < 8 * n + 200)) := by
  intro guard started
  have herror : started = .error .roomSetting ↔
      max (frames : ℤ) largestRoom < 8 * guard.limit + 200 :=
    start_error_iff.trans (and_iff_right rfl)
  refine ⟨fun hroom => ?_, herror.mpr, fun hframes => ?_⟩
  · -- the room that the limit asks for is there, and texts change neither of them
    cases hstarted : started with
    | error f => exact absurd (start_error_iff.mp hstarted).2 hroom.not_gt
    | ok s =>
        obtain ⟨room, henlarged, rfl⟩ := exists_of_map_eq_ok hstarted
        obtain ⟨left, rfl, hfits, hkept⟩ := enlarge_ok henlarged
        refine ⟨_, rfl, rfl, initialStore_bindings, fun s' hleads => ?_⟩
        obtain ⟨hguard, hsame⟩ := hleads.sameHost
        refine ⟨left, hsame, ?_, hkept⟩
        rw [hguard]
        exact hfits
  · -- the default limit asks for little, so one that asks for too much comes from the text
    rw [herror, max_eq_right hframes]
    have hlimit (n : ℤ) : largestRoom < 8 * n + 200 ↔ (largestRoom - 200) / 8 < n := by omega
    simp only [hlimit]
    exact lt_depthSetting_iff (by decide)

/-- A session starts under a setting in full-width digits with white space around them, and has
room for its limit. -/
theorem full_width_setting_starts_session :
    let guard : CallGuard := .ofSetting (some " ４５０\n")
    guard.limit = 450 ∧ ∃ s, Session.start guard leastRoom = .ok s ∧
      ∃ left : ℕ, s.room = some left ∧ 8 * 450 + 200 ≤ left := by
  intro guard
  have hlimit : guard.limit = 450 := rfl
  have hroom : 8 * guard.limit + 200 ≤ max ((1000 : ℕ) : ℤ) largestRoom := by
    rw [hlimit]
    decide
  obtain ⟨s, hs, hguard, -, hstates⟩ :=
    (session_starts_unless_setting_is_too_large (some " ４５０\n") 1000).1 hroom
  obtain ⟨left, hleft, hfits, -⟩ := hstates s .refl
  rw [hguard, hlimit] at hfits
  exact ⟨hlimit, s, hs, left, hleft, by exact_mod_cast hfits⟩

/-- A setting of three hundred million lets no session start, and the fault is none of the
language. -/
theorem large_setting_starts_no_session :
    Session.start (.ofSetting (some "300000000")) leastRoom = .error .roomSetting ∧
      Fault.roomSetting.isReported = false := by
  exact ⟨rfl, rfl⟩

end TinyLisp
