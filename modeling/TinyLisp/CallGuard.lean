/-
The guard on nested calls.

A call of a closure opens a call frame and its return closes it. The guard
counts the open frames and refuses to open one more than the limit. The limit is
the one that was set, even zero or below; else the positive number of a setting;
else `defaultDepth`. A setting that is no positive number is reported whenever
the limit is looked up.

* `openFrame`: what opening a frame does to the depth.
* `DepthWarning`, `depthSetting`: the limit that a setting gives, and what is
  wrong with the setting.
* `CallGuard`: the guard, `limit`, `enter` and `leave` its operations.
-/
import TinyLisp.Fault
import TinyLisp.Text.Quoted

namespace TinyLisp

/-! ### Opening a frame -/

/-- The fault of one call more than the limit, unless the limit has too many digits to be shown. -/
def depthFault (limit : Int) : Fault :=
  match Text.decimal? limit with
  | some _ => .callDepth limit
  | none => .display .longInteger

/-- The depth after one more frame is opened, which the limit may refuse. -/
def openFrame (limit : Int) (depth : Nat) : Except Fault Nat :=
  if limit ≤ depth then .error (depthFault limit) else .ok (depth + 1)

/-- A frame is opened exactly below the limit. -/
theorem openFrame_eq_ok_iff (limit : Int) (depth next : Nat) :
    openFrame limit depth = .ok next ↔ (depth : Int) < limit ∧ next = depth + 1 := by
  by_cases h : limit ≤ (depth : Int)
  · rw [openFrame, if_pos h]
    exact ⟨fun hf => (nomatch hf), fun ⟨hlt, _⟩ => absurd h (by omega)⟩
  · rw [openFrame, if_neg h, Except.ok.injEq]
    exact ⟨fun he => ⟨by omega, he.symm⟩, fun ⟨_, he⟩ => he.symm⟩

/-! ### The setting -/

/-- The limit without a setting. -/
def defaultDepth : Int := 500

/-- What is wrong with a setting. -/
inductive DepthWarning where
  | notInteger (raw : String)
  | notPositive (raw : String)
  deriving DecidableEq

/-- The wording of a warning about a setting. -/
def DepthWarning.message : DepthWarning → String
  | notInteger raw => wording raw "not an integer"
  | notPositive raw => wording raw "must be positive"
where
  /-- The wording shared by all warnings. -/
  wording (raw reason : String) : String :=
    "Ignoring MAL_MAX_CALL_DEPTH=" ++ Text.quoted raw ++ ": " ++ reason ++ ", using " ++
      String.ofList (Text.decimal defaultDepth)

/-- The limit that a setting gives, and what is wrong with the setting. An empty setting is
none. -/
def depthSetting (setting : Option String) : Int × Option DepthWarning :=
  match setting with
  | none => (defaultDepth, none)
  | some raw =>
    if raw.isEmpty then (defaultDepth, none)
    else
      match Text.signedNumeral? (Text.strip raw.toList) with
      | none => (defaultDepth, some (.notInteger raw))
      | some n => if n ≤ 0 then (defaultDepth, some (.notPositive raw)) else (n, none)

theorem defaultDepth_pos : 0 < defaultDepth := by decide

/-- A setting gives a positive limit, whatever its text. -/
theorem depthSetting_pos (setting : Option String) : 0 < (depthSetting setting).1 := by
  cases setting with
  | none => exact defaultDepth_pos
  | some raw =>
    rw [depthSetting]
    split
    · exact defaultDepth_pos
    · split
      · exact defaultDepth_pos
      · next n _ =>
        by_cases hn : n ≤ 0
        · rw [if_pos hn]
          exact defaultDepth_pos
        · rw [if_neg hn]
          exact Int.not_le.mp hn

/-! ### The guard -/

/-- The count of open frames, with the limit that was set and the setting. -/
structure CallGuard where
  depth : Nat
  override : Option Int
  setting : Option String

namespace CallGuard

/-- A guard without open frames and without a limit of its own. -/
def ofSetting (setting : Option String) : CallGuard :=
  ⟨0, none, setting⟩

/-- The limit that holds now. -/
def limit (g : CallGuard) : Int :=
  g.override.getD (depthSetting g.setting).1

/-- The warning that looking up the limit gives. -/
def warning (g : CallGuard) : Option DepthWarning :=
  match g.override with
  | some _ => none
  | none => (depthSetting g.setting).2

/-- Opens a frame, unless the limit refuses. -/
def enter (g : CallGuard) : Except Fault CallGuard :=
  (openFrame g.limit g.depth).map fun depth => { g with depth }

/-- Closes the newest frame. -/
def leave (g : CallGuard) : CallGuard :=
  { g with depth := g.depth - 1 }

end CallGuard

end TinyLisp
