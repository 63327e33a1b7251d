/-
Settings: how a bitext is indexed, shuffled and packed.

Two of the settings are chosen by name.  The bucketing says which length a pair is
filed under, so it decides which pairs can share a batch; the overlong policy says what
becomes of a pair with a side that is too long.  Names are compared without regard to
the case of ASCII letters.

`check` looks at every setting before any file is touched.  The order of its tests
shows when several settings are wrong, and the first one wins.
-/
import Bitext.Disk.Basic

namespace Bitext

/-- The length under which a pair is filed. -/
inductive Bucketing where
  /-- Both sides together. -/
  | combined
  /-- The longer side. -/
  | longer
  /-- The source side. -/
  | source
  deriving DecidableEq, Repr

/-- What becomes of a pair with a side over its maximum. -/
inductive Overlong where
  /-- The pair is left out. -/
  | drop
  /-- The side is clipped to its maximum. -/
  | clip
  deriving DecidableEq, Repr

namespace Bucketing

/-- The name that a bucketing is shown under. -/
def name : Bucketing → String
  | .combined => "Random"
  | .longer => "NoPadding"
  | .source => "NoPaddingInSrc"

/-- The bucketing that a name stands for. -/
def ofName (value : String) : Except Fault Bucketing :=
  let lower := value.toLower
  if lower = "random" || lower = "group" then .ok .combined
  else if lower = "nopadding" then .ok .longer
  else if lower = "nopaddinginsrc" then .ok .source
  else .error (Cause.unknownChoice .bucketing value)

end Bucketing

namespace Overlong

/-- The name that a policy is shown under. -/
def name : Overlong → String
  | .drop => "Ignore"
  | .clip => "Truncation"

/-- The policy that a name stands for. -/
def ofName (value : String) : Except Fault Overlong :=
  let lower := value.toLower
  if lower = "ignore" then .ok .drop
  else if lower = "truncation" then .ok .clip
  else .error (Cause.unknownChoice .overlong value)

end Overlong

/-- The settings of a corpus. -/
structure Settings where
  /-- The most tokens of a source side before the overlong policy applies. -/
  maxSource : Nat := 32
  /-- The most tokens of a target side before the overlong policy applies. -/
  maxTarget : Nat := 32
  /-- The most tokens of a batch, both sides together.  It has to be set. -/
  budget : Option Nat := none
  bucketing : Bucketing := .combined
  overlong : Overlong := .drop
  /-- How many lengths share a bucket. -/
  classWidth : Nat := 10
  /-- The seed from which the seeds of the epochs are counted. -/
  seed : Option Nat := none
  /-- How many workers read files; with none the caller reads them. -/
  workers : Nat := 0
  /-- The folder for temporary files, if not the system's own. -/
  workDir : Option Path := none
  /-- Whether the lengths are reported after the first index. -/
  showLengths : Bool := true

namespace Settings

/-- The system's own folder for temporary files. -/
def systemDir : Path := ⟨"/tmp"⟩

/-- The folder in which temporary files are kept. -/
def tempDir (settings : Settings) : Path := settings.workDir.getD systemDir

/-- The token budget, once it is known to be set. -/
def tokenBudget (settings : Settings) : Nat := settings.budget.getD 0

/-- A limit has to be positive. -/
def checkLimit (limit : Limit) (value : Nat) : Except Fault Unit :=
  if value = 0 then .error (Cause.settings (.zeroLimit limit)) else .ok ()

/-- The budget has to be set, and to be positive. -/
def checkBudget : Option Nat → Except Fault Unit
  | some budget => checkLimit .budget budget
  | none => .error (Cause.settings .noBudget)

/-- A folder for temporary files has to exist. -/
def checkWorkDir (disk : Disk) : Option Path → Except Fault Unit
  | some path =>
      match disk.findFolder path with
      | .ok _ => .ok ()
      | .error _ => .error (Cause.settings (.noWorkDir path.text))
  | none => .ok ()

/-- The first fault of the settings, if they have one. -/
def check (settings : Settings) (disk : Disk) : Except Fault Unit := do
  checkLimit .sourceTokens settings.maxSource
  checkLimit .targetTokens settings.maxTarget
  checkBudget settings.budget
  checkLimit .classWidth settings.classWidth
  checkWorkDir disk settings.workDir

/-! ### Settings without a fault -/

variable {settings : Settings} {disk : Disk}

theorem pos_of_checkLimit {limit : Limit} {value : Nat} (h : checkLimit limit value = .ok ()) :
    0 < value := by
  refine Nat.pos_of_ne_zero fun hzero => ?_
  rw [checkLimit, if_pos hzero] at h
  cases h

/-- Settings without a fault have passed every check. -/
theorem passed_of_check (h : settings.check disk = .ok ()) :
    checkLimit .sourceTokens settings.maxSource = .ok () ∧
      checkLimit .targetTokens settings.maxTarget = .ok () ∧
      checkBudget settings.budget = .ok () ∧
      checkLimit .classWidth settings.classWidth = .ok () ∧
      checkWorkDir disk settings.workDir = .ok () := by
  rw [check] at h
  obtain ⟨_, hsource, h⟩ := exists_of_bind_ok h
  obtain ⟨_, htarget, h⟩ := exists_of_bind_ok h
  obtain ⟨_, hbudget, h⟩ := exists_of_bind_ok h
  obtain ⟨_, hwidth, hworkDir⟩ := exists_of_bind_ok h
  exact ⟨hsource, htarget, hbudget, hwidth, hworkDir⟩

theorem tokenBudget_pos_of_check (h : settings.check disk = .ok ()) :
    0 < settings.tokenBudget := by
  obtain ⟨-, -, hbudget, -⟩ := passed_of_check h
  cases hset : settings.budget with
  | none =>
      rw [hset, checkBudget] at hbudget
      cases hbudget
  | some budget =>
      rw [hset, checkBudget] at hbudget
      rw [tokenBudget, hset]
      exact pos_of_checkLimit hbudget

theorem classWidth_pos_of_check (h : settings.check disk = .ok ()) : 0 < settings.classWidth := by
  obtain ⟨-, -, -, hwidth, -⟩ := passed_of_check h
  exact pos_of_checkLimit hwidth

end Settings

end Bitext
