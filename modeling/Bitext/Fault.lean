/-
Faults: what can go wrong, and where it happened.

A fault is one cause under a stack of contexts.  The cause is data: callers match on
it to tell a mistake in the settings from a mistake in the corpus, from a damaged
file, from a complaint of the operating system.  The contexts name the file, the line
or the epoch that was being worked on, the outermost first.  Wording is one function
for each type, and the message of a fault is all of them, joined by colons.
-/
import Bitext.Pair
import Bitext.Text.Utf8
import Bitext.Text.Quoted

namespace Bitext

/-! ### Causes

Some causes have a reason of their own.  The settings and the records may also be
refused by a caller, for a reason that the caller states; `stated` is for those.
-/

/-- The limits that have to be positive. -/
inductive Limit where
  | sourceTokens
  | targetTokens
  | budget
  | classWidth
  deriving DecidableEq, Repr

/-- The name under which a limit is set. -/
def Limit.name : Limit → String
  | .sourceTokens => "max_src_tokens"
  | .targetTokens => "max_tgt_tokens"
  | .budget => "token_budget"
  | .classWidth => "length_class_width"

/-- The complaint about a limit of zero. -/
def Limit.zeroMessage (limit : Limit) : String :=
  limit.name ++ " must be > 0, but got " ++ limit.name ++ "=0"

/-- What is wrong with the settings of a corpus. -/
inductive SettingsDefect where
  | zeroLimit (limit : Limit)
  | noBudget
  | noWorkDir (path : String)
  | sameLanguage (language : String)
  | noFilePairs
  | stated (reason : String)
  deriving DecidableEq, Repr

/-- The defect in words. -/
def SettingsDefect.message : SettingsDefect → String
  | .zeroLimit limit => limit.zeroMessage
  | .noBudget => "token_budget must be set"
  | .noWorkDir path => "work_dir '" ++ path ++ "' is not an existing directory"
  | .sameLanguage language =>
      "source and target languages must differ, but both are '" ++ language ++ "'"
  | .noFilePairs => "at least one file pair is required"
  | .stated reason => reason

/-- The settings that are chosen by name. -/
inductive Choice where
  | bucketing
  | overlong
  deriving DecidableEq, Repr

/-- What the choice is about. -/
def Choice.name : Choice → String
  | .bucketing => "shuffle mode"
  | .overlong => "too-long-sequence policy"

/-- The names to choose from. -/
def Choice.names : Choice → String
  | .bucketing => "Random, NoPadding, NoPaddingInSrc"
  | .overlong => "Ignore, Truncation"

/-- What is wrong with the bytes of a record. -/
inductive RecordDefect where
  | tooShort (needed remaining : Nat)
  | notText (defect : Utf8.Defect)
  | pairCount (count : Int)
  | lineCounts (expected source target : Nat)
  | stated (reason : String)
  deriving DecidableEq, Repr

/-- The defect in words. -/
def RecordDefect.message : RecordDefect → String
  | .tooShort needed remaining =>
      "needed " ++ toString needed ++ " bytes but only " ++ toString remaining ++ " remain"
  | .notText defect => "invalid utf-8: " ++ defect.message
  | .pairCount count => "invalid pair count " ++ toString count
  | .lineCounts expected source target =>
      "expected " ++ toString expected ++ " lines per side, found " ++ toString source
        ++ " source and " ++ toString target ++ " target"
  | .stated reason => reason

/-- A record that cannot be read, and the byte that gives it away. -/
structure RecordFault where
  offset : Nat
  defect : RecordDefect
  deriving DecidableEq, Repr

/-- The fault in words. -/
def RecordFault.message (fault : RecordFault) : String :=
  "corrupt record at byte " ++ toString fault.offset ++ ": " ++ fault.defect.message

/-- The complaints of an operating system about a path. -/
inductive OsError where
  | notFound
  | notPermitted
  | notAFolder
  | isAFolder
  | nameTooLong
  | nulInName
  deriving DecidableEq, Repr

/-- The complaint with its number.  A name with a NUL has none, because it cannot even be
handed over to the system. -/
def OsError.message : OsError → String
  | .notFound => "No such file or directory (os error 2)"
  | .notPermitted => "Permission denied (os error 13)"
  | .notAFolder => "Not a directory (os error 20)"
  | .isAFolder => "Is a directory (os error 21)"
  | .nameTooLong => "File name too long (os error 36)"
  | .nulInName => "file name contained an unexpected NUL byte"

/-- The complaint when the path that it is about has to be shown with it. -/
def OsError.messageAt (error : OsError) (path : String) : String :=
  error.message ++ " at path " ++ Text.quoted path

/-- What can go wrong. -/
inductive Cause where
  | settings (defect : SettingsDefect)
  | unknownChoice (choice : Choice) (value : String)
  | missingCounterpart (path suffix : String)
  | noPairsFound (folder sourceSuffix targetSuffix : String)
  | groupMismatch (line sourceGroups targetGroups : Nat)
  | unbalancedEnd (line : Nat) (ended : Side)
  | record (fault : RecordFault)
  | system (error : OsError)
  | systemAt (error : OsError) (path : String)
  | lineNotText
  | numberTooLarge
  | zeroBudget
  | workersGone
  deriving DecidableEq, Repr

/-- The cause in words. -/
def Cause.message : Cause → String
  | .settings defect => "invalid configuration: " ++ defect.message
  | .unknownChoice choice value =>
      "unknown " ++ choice.name ++ " '" ++ value ++ "' (expected one of: " ++ choice.names ++ ")"
  | .missingCounterpart path suffix =>
      "corpus file '" ++ path ++ "' has no matching '" ++ suffix ++ "' counterpart"
  | .noPairsFound folder sourceSuffix targetSuffix =>
      "no '*" ++ sourceSuffix ++ "' / '*" ++ targetSuffix ++ "' file pairs found in '"
        ++ folder ++ "'"
  | .groupMismatch line sourceGroups targetGroups =>
      "inconsistent group size at line " ++ toString line ++ ": source has "
        ++ toString sourceGroups ++ " group(s), target has " ++ toString targetGroups
  | .unbalancedEnd line ended =>
      ended.name ++ " side reached end of file at line " ++ toString line
        ++ " while the other side still has data"
  | .record fault => fault.message
  | .system error => error.message
  | .systemAt error path => error.messageAt path
  | .lineNotText => "stream did not contain valid UTF-8"
  | .numberTooLarge => "number too large to fit in target type"
  | .zeroBudget => Limit.budget.zeroMessage
  | .workersGone => "Ingestion workers exited before finishing all files"

/-- The causes that lie in the settings and the choice of files; they come up before
any work has started. -/
def Cause.isSettings : Cause → Bool
  | .settings _ | .unknownChoice _ _ | .missingCounterpart _ _ | .noPairsFound _ _ _ => true
  | _ => false

/-- The causes that lie in the text of the corpus. -/
def Cause.isFormat : Cause → Bool
  | .groupMismatch _ _ _ | .unbalancedEnd _ _ => true
  | _ => false

/-! ### Contexts -/

/-- What was being done when a cause came up. -/
inductive Context where
  | settings
  | readingFolder (folder : String)
  | opening (side : Side) (path : String)
  | readingLine (side : Side) (line : Nat)
  | readingPair (pair : String)
  | countingPair (pair : String)
  | preparingEpoch (epoch : Nat)
  | creatingBlob (folder : String)
  | reopeningBlob (path : String)
  | deletingBlob (path : String)
  | creatingEpoch (folder : String)
  | openingEpoch (path : String)
  | readingBatch (number : Nat) (path : String)
  | storingTokenCount (side : Side) (count : Nat)
  | storingText (bytes : Nat)
  | storingBatch (pairs : Nat)
  deriving DecidableEq, Repr

/-- The context in words. -/
def Context.message : Context → String
  | .settings => "Invalid corpus configuration"
  | .readingFolder folder => "Failed to read corpus directory: " ++ folder
  | .opening side path => "Failed to open " ++ side.name ++ " file: " ++ path
  | .readingLine side line => "Error reading " ++ side.name ++ " line " ++ toString line
  | .readingPair pair => "While reading " ++ pair
  | .countingPair pair => "While counting tokens of " ++ pair
  | .preparingEpoch epoch => "Failed to prepare epoch " ++ toString epoch
  | .creatingBlob folder => "Failed to create raw blob in " ++ folder
  | .reopeningBlob path => "Failed to reopen raw blob " ++ path
  | .deletingBlob path => "Failed to delete raw blob " ++ path
  | .creatingEpoch folder => "Failed to create epoch file in " ++ folder
  | .openingEpoch path => "Failed to open epoch file " ++ path
  | .readingBatch number path => "While reading batch " ++ toString number ++ " of " ++ path
  | .storingTokenCount side count =>
      side.name ++ " token count " ++ toString count ++ " does not fit in u32"
  | .storingText bytes => "string of " ++ toString bytes ++ " bytes does not fit a record"
  | .storingBatch pairs => "batch of " ++ toString pairs ++ " pairs is too large"

/-- A cause and the contexts around it, the outermost first. -/
structure Fault where
  cause : Cause
  context : List Context := []
  deriving DecidableEq, Repr

namespace Fault

/-- The whole fault in words: the contexts from the outside in, and the cause. -/
def message (fault : Fault) : String :=
  ": ".intercalate (fault.context.map Context.message ++ [fault.cause.message])

/-- The same fault, seen from one context further out. -/
def within (outer : Context) (fault : Fault) : Fault :=
  { fault with context := outer :: fault.context }

instance : Coe Cause Fault := ⟨fun cause => ⟨cause, []⟩⟩

end Fault

/-- A result whose fault, if it is one, is seen from one context further out. -/
def within {α : Type} (outer : Context) (result : Except Fault α) : Except Fault α :=
  result.mapError (Fault.within outer)

/-- What two steps come to, the first step came to before. -/
theorem exists_of_bind_ok {ε α β : Type} {first : Except ε α} {next : α → Except ε β} {b : β}
    (h : first >>= next = .ok b) : ∃ a, first = .ok a ∧ next a = .ok b := by
  cases first with
  | error fault => cases h
  | ok a => exact ⟨a, rfl, h⟩

end Bitext
