/-
Events: what a corpus reports while it works.

An event says what happened and with which numbers; how loud it is, in which words it is
reported and which values are attached to it are functions of the event.  Whoever
collects events can therefore look for a kind of event without taking texts apart.
-/
import Bitext.LengthClass
import Bitext.Tally

namespace Bitext

/-- How loud an event is. -/
inductive Level where
  | debug
  | info
  | warn
  | error
  deriving DecidableEq, Repr

/-- A value attached to an event. -/
inductive FieldValue where
  | number (n : Nat)
  | text (s : String)
  deriving DecidableEq, Repr

/-- Something that happened while a corpus was prepared or read. -/
inductive Event where
  | loadingCorpus (folder : String) (pairs budget : Nat) (bucketing : Bucketing)
      (overlong : Overlong) (maxSource maxTarget : Nat)
  | preparingEpoch (epoch : Nat)
  | buildingIndex (pairs workers : Nat)
  | readingPair (pair : String)
  | builtIndex (pairs buckets : Nat) (blob : String)
  | indexed (accepted read : Nat)
  | foundOverlong (side : Side) (count most : Nat) (overlong : Overlong)
  | lengthDistribution (bucketing : Bucketing)
  | sideDistribution (side : Side)
  | histogramRow (row : HistogramRow)
  | packing (pairs buckets budget : Nat)
  | packedSoFar (batches pairs : Nat)
  | packedBatch (key size tokens : Nat)
  | blobNotDeleted (fault : Fault)
  | packedEpoch (batches pairs : Nat) (file : String)
  | damagedEpoch (file : String) (fault : RecordFault)
  | epochNotDeleted (file : String) (error : OsError)
  | readBatch (number total percent : Nat)
  | vocabularySize (side : Side) (group tokens : Nat)
  deriving DecidableEq

namespace Event

/-- How loud the event is. -/
def level : Event → Level
  | .readingPair _ | .packedBatch _ _ _ => .debug
  | .foundOverlong _ _ _ _ | .blobNotDeleted _ | .epochNotDeleted _ _ => .warn
  | .damagedEpoch _ _ => .error
  | _ => .info

/-- What was done to sides that are too long. -/
def overlongAction : Overlong → String
  | .drop => "ignored them"
  | .clip => "truncated them"

/-- The event in words. -/
def message : Event → String
  | .loadingCorpus _ _ _ _ _ _ _ => "Loading parallel corpus"
  | .preparingEpoch _ => "Preparing epoch"
  | .buildingIndex _ _ => "Start to build index for data set"
  | .readingPair _ => "Ingesting file pair"
  | .builtIndex _ _ _ => "Finished building index for data set"
  | .indexed accepted _ => "Indexed " ++ toString accepted ++ " sentence pairs"
  | .foundOverlong side count most overlong =>
      "Found " ++ toString count ++ " " ++ side.name ++ " sentences longer than '"
        ++ toString most ++ "' tokens, " ++ overlongAction overlong ++ "."
  | .lengthDistribution _ => "Token length distribution"
  | .sideDistribution side => side.title ++ " token length distribution"
  | .histogramRow row => row.text
  | .packing _ _ _ => "Shuffling and packing sentence pairs"
  | .packedSoFar batches pairs =>
      "Created '" ++ toString batches ++ "' batches ('" ++ toString pairs ++ "' pairs) so far."
  | .packedBatch _ _ _ => "Packed batch"
  | .blobNotDeleted fault => fault.message
  | .packedEpoch _ _ _ => "Finished packing epoch"
  | .damagedEpoch _ fault => "Corrupt epoch file: " ++ fault.message
  | .epochNotDeleted file error => "Failed to delete epoch file: " ++ error.messageAt file
  | .readBatch number total percent =>
      "Processing batch '" ++ toString number ++ "/" ++ toString total ++ "' ("
        ++ toString percent ++ "%)."
  | .vocabularySize side _ _ => side.title ++ " vocabulary size"

/-- The values attached to the event, by name. -/
def fields : Event → List (String × FieldValue)
  | .loadingCorpus folder pairs budget bucketing overlong maxSource maxTarget =>
      [("dir", .text folder), ("file_pairs", .number pairs), ("budget", .number budget),
       ("shuffle_mode", .text bucketing.name), ("too_long_policy", .text overlong.name),
       ("max_src_tokens", .number maxSource), ("max_tgt_tokens", .number maxTarget)]
  | .preparingEpoch epoch => [("epoch", .number epoch)]
  | .buildingIndex pairs workers => [("files", .number pairs), ("workers", .number workers)]
  | .readingPair pair => [("files", .text pair)]
  | .builtIndex pairs buckets blob =>
      [("pairs", .number pairs), ("buckets", .number buckets), ("blob", .text blob)]
  | .indexed accepted read => [("accepted", .number accepted), ("read", .number read)]
  | .lengthDistribution bucketing => [("shuffle_mode", .text bucketing.name)]
  | .packing pairs buckets budget =>
      [("pairs", .number pairs), ("buckets", .number buckets), ("budget", .number budget)]
  | .packedBatch key size tokens =>
      [("key", .number key), ("size", .number size), ("tokens", .number tokens)]
  | .packedEpoch batches pairs file =>
      [("batches", .number batches), ("pairs", .number pairs), ("file", .text file)]
  | .damagedEpoch file _ => [("file", .text file)]
  | .epochNotDeleted file _ => [("file", .text file)]
  | .vocabularySize _ group tokens => [("group", .number group), ("tokens", .number tokens)]
  | _ => []

end Event

namespace Tally

/-- The event about the sides that were too long, if there were any. -/
def overlongEvents (settings : Settings) (side : Side) (count most : Nat) : List Event :=
  if count > 0 then [.foundOverlong side count most settings.overlong] else []

/-- The histogram of a side as events. -/
def histogramEvents (side : Side) (h : Histogram) : List Event :=
  .sideDistribution side :: h.rows.map .histogramRow

/-- The events that sum a tally up, with the length histograms if they are wanted. -/
def summary (tally : Tally) (settings : Settings) (showLengths : Bool) : List Event :=
  [.indexed tally.accepted tally.read]
    ++ overlongEvents settings .source tally.sourceTooLong settings.maxSource
    ++ overlongEvents settings .target tally.targetTooLong settings.maxTarget
    ++ (if showLengths then
          [.lengthDistribution settings.bucketing]
            ++ histogramEvents .source tally.sourceLengths
            ++ histogramEvents .target tally.targetLengths
        else [])

end Tally

end Bitext
