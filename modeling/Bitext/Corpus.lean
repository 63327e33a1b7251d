/-
The corpus: a bitext served epoch by epoch.

Every epoch reads the text anew, builds an index, packs it and leaves an epoch file to be
streamed.  Nothing is kept from one epoch to the next except the number of the next epoch
and whether the length distribution still has to be shown.  It is shown once, after the
first index that could be built; a build that fails does not use it up.

Epoch `n` is shuffled by the base seed plus `n`, so the same epoch of the same files is
the same sequence of batches whenever it is prepared.  Whatever generator is started from
that seed is a part of the corpus.
-/
import Bitext.Build
import Bitext.Vocabulary

namespace Bitext

/-- A bitext with its settings, ready for its next epoch. -/
structure Corpus (σ : Type) where
  /-- Where the random numbers come from. -/
  generator : Generator σ
  files : FileSet
  settings : Settings
  /-- The seed from which the seeds of the epochs are counted. -/
  baseSeed : Nat
  /-- The epoch that the next call for a stream prepares. -/
  nextEpoch : Nat := 0
  /-- The length distribution has still to be shown. -/
  showLengths : Bool
  /-- The settings have been checked. -/
  budgeted : 0 < settings.tokenBudget

namespace Corpus

variable {σ : Type}

/-- A corpus over given files.  When the settings name no seed, `spareSeed` is taken. -/
def ofFiles (generator : Generator σ) (files : FileSet) (settings : Settings) (spareSeed : Nat) :
    Job (Corpus σ) := do
  let disk := (← get).disk
  match checked : settings.check disk with
  | .error fault => throw (fault.within .settings)
  | .ok () =>
      Workspace.report
        (.loadingCorpus files.folder.text files.size settings.tokenBudget settings.bucketing
          settings.overlong settings.maxSource settings.maxTarget)
      return {
        generator, files, settings
        baseSeed := settings.seed.getD spareSeed
        showLengths := settings.showLengths
        budgeted := Settings.tokenBudget_pos_of_check checked }

/-- A corpus over the files of two languages in a folder.  The settings are looked at
before the folder is. -/
def discover (generator : Generator σ) (folder : Path) (source target : String)
    (settings : Settings) (spareSeed : Nat) : Job (Corpus σ) := do
  Job.ofExcept (within .settings (settings.check (← get).disk))
  let files ← Job.ofExcept (FileSet.discover (← get).disk folder source target)
  ofFiles generator files settings spareSeed

/-- Prepares an epoch and leaves the number of the next epoch as it is. -/
def prepare (corpus : Corpus σ) (epoch : Nat) : Work (Except Fault Epoch × Corpus σ) := do
  Workspace.report (.preparingEpoch epoch)
  match ← (Build.index corpus.settings corpus.files).run with
  | .error fault => return (.error fault, corpus)
  | .ok built =>
      Workspace.reportAll (built.tally.summary corpus.settings corpus.showLengths)
      let start := corpus.generator.ofEpoch corpus.baseSeed epoch
      let budget := corpus.settings.tokenBudget
      let folder := corpus.settings.tempDir
      let result ← (Epoch.packWithin budget corpus.generator.dice start built folder).run
      return (result, { corpus with showLengths := false })

/-- Prepares the next epoch and opens it.  The epoch counts as used even if that
fails. -/
def iterate (corpus : Corpus σ) : Work (Except Fault BatchStream × Corpus σ) := do
  let epoch := corpus.nextEpoch
  let (prepared, corpus) ← { corpus with nextEpoch := epoch + 1 }.prepare epoch
  match within (.preparingEpoch epoch) prepared with
  | .error fault => return (.error fault, corpus)
  | .ok ready => return (← ready.openStream.run, corpus)

/-- Counts the tokens of the corpus. -/
def vocabulary (corpus : Corpus σ) : Job Vocabulary := Vocabulary.ofFiles corpus.files

end Corpus

end Bitext
