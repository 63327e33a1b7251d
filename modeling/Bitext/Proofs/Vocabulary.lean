/-
Vocabularies count what an index is built from.

Counting checks the lines of a file pair as a build does: it goes on as long as the groups match,
stops where a build stops, and says the same, only under another context.  So both succeed on the
same files, and where they fail the same line is to blame.

What was counted is known from the lines alone.  Each line hands its tokens to the groups that it
has, and a group that comes up late has had no tokens before; so the counts of a group are those of
its tokens in all lines, whichever line came first, and no order of the files makes a difference.
-/
import Bitext.Vocabulary
import Bitext.Proofs.Build.Contents
import Bitext.Proofs.Occurrences
import Bitext.Proofs.Text.Clip

namespace Bitext.Vocabulary

/-! ### The tokens of a group -/

/-- The tokens that stand in a group of the lines. -/
def column (lines : List String) (group : Nat) : List String :=
  lines.flatMap fun line => (Line.tokens line).getD group []

/-- The largest number of groups in a line. -/
def widest (lines : List String) : Nat := (lines.map Line.groupCount).foldr max 0

/-- The number of tokens that are counted in a group. -/
def total (counts : TokenCounts) : Nat := (counts.toList.map (·.2)).sum

/-- The tokens of these lines are counted group by group, and nothing else is. -/
structure Counts (lines : List String) (groups : List TokenCounts) : Prop where
  width : groups.length = widest lines
  group : ∀ i, CountsOf (groups.getD i ∅) (column lines i)

variable {lines others : List String} {groups copies : List TokenCounts}

theorem length_tokens (line : String) : (Line.tokens line).length = Line.groupCount line := by
  rw [Line.tokens, List.length_map, Line.groupCount_eq_length]

theorem widest_perm (h : lines.Perm others) : widest lines = widest others :=
  (h.map _).foldr_eq 0

theorem le_widest {line : String} (h : line ∈ lines) : Line.groupCount line ≤ widest lines :=
  List.le_max_of_le (List.mem_map_of_mem h) (Nat.le_refl _)

/-! ### Counting lines -/

theorem countsOf_foldl {counts : TokenCounts} {before : List String} (tokens : List String)
    (h : CountsOf counts before) :
    CountsOf (tokens.foldl countToken counts) (before ++ tokens) := by
  induction tokens generalizing counts before with
  | nil => rwa [List.append_nil]
  | cons token rest ih =>
      have hlater := ih (h.insert token)
      rwa [List.append_assoc, List.singleton_append] at hlater

theorem length_countGroups (tokens : List (List String)) (groups : List TokenCounts) :
    (countGroups tokens groups).length = max tokens.length groups.length := by
  fun_induction countGroups tokens groups with
  | case1 groups => simp
  | case2 group rest ih => simp [ih]
  | case3 group rest counts later ih => simp [ih]

/-- Each group gets its tokens. -/
theorem getD_countGroups (tokens : List (List String)) (groups : List TokenCounts) (i : Nat) :
    (countGroups tokens groups).getD i ∅
      = (tokens.getD i []).foldl countToken (groups.getD i ∅) := by
  fun_induction countGroups tokens groups generalizing i with
  | case1 groups => rfl
  | case2 group rest ih =>
      cases i with
      | zero => rfl
      | succ i => exact ih i
  | case3 group rest counts later ih =>
      cases i with
      | zero => rfl
      | succ i => exact ih i

theorem counts_nil : Counts [] [] := ⟨rfl, fun _ => .empty⟩

/-- A line adds its tokens to its groups, and groups if it has more than there are. -/
theorem Counts.add (h : Counts lines groups) (line : String) :
    Counts (lines ++ [line]) (countGroups (Line.tokens line) groups) where
  width := by
    rw [length_countGroups, length_tokens, h.width, widest_perm List.perm_append_comm]
    rfl
  group i := by
    have hcolumn : column (lines ++ [line]) i = column lines i ++ (Line.tokens line).getD i [] := by
      rw [column, List.flatMap_append, List.flatMap_singleton]
      rfl
    rw [getD_countGroups, hcolumn]
    exact countsOf_foldl _ (h.group i)

/-- What was counted is known from the lines, in whatever order they came. -/
theorem Counts.unique (h : Counts lines groups) (hothers : Counts others copies)
    (hperm : lines.Perm others) : groups = copies := by
  have hlength : groups.length = copies.length := by
    rw [h.width, hothers.width, widest_perm hperm]
  refine List.ext_getElem hlength fun i hi hother => ?_
  have hgroup := (h.group i).unique (hothers.group i) (hperm.flatMap_right _)
  rwa [List.getD_eq_getElem _ _ hi, List.getD_eq_getElem _ _ hother] at hgroup

/-! ### The number of tokens -/

theorem sum_lengths (tokens : List (List String)) :
    ∀ n, tokens.length ≤ n →
      ((List.range n).map fun i => (tokens.getD i []).length).sum = tokens.flatten.length := by
  induction tokens with
  | nil => intro n _; simp
  | cons group rest ih =>
      intro n hn
      cases n with
      | zero => cases hn
      | succ n =>
          rw [List.range_succ_eq_map, List.map_cons, List.map_map, List.sum_cons,
            List.flatten_cons, List.length_append, ← ih n (Nat.le_of_succ_le_succ hn)]
          rfl

/-- Every token stands in one column. -/
theorem sum_columns {n : Nat} (h : ∀ line ∈ lines, Line.groupCount line ≤ n) :
    ((List.range n).map fun i => (column lines i).length).sum
      = (lines.map Line.tokenCount).sum := by
  induction lines with
  | nil => simp [column]
  | cons line rest ih =>
      have hcolumn : ∀ i, (column (line :: rest) i).length
          = ((Line.tokens line).getD i []).length + (column rest i).length := by
        intro i
        rw [column, List.flatMap_cons, List.length_append]
        rfl
      simp only [hcolumn]
      rw [List.sum_map_add, ih fun later hlater => h later (List.mem_cons_of_mem line hlater),
        sum_lengths _ n (length_tokens line ▸ h line List.mem_cons_self), List.map_cons,
        List.sum_cons, Line.tokenCount_eq_length_tokens]

/-- **All tokens of the lines are counted.** -/
theorem Counts.total_eq (h : Counts lines groups) :
    (groups.map total).sum = (lines.map Line.tokenCount).sum := by
  have hgroups : groups.map total
      = (List.range (widest lines)).map fun i => (column lines i).length := by
    refine List.ext_getElem (by simp [h.width]) fun i hi hother => ?_
    rw [List.length_map] at hi
    have hgroup := h.group i
    rw [List.getD_eq_getElem _ _ hi] at hgroup
    rw [List.getElem_map, List.getElem_map, List.getElem_range, ← hgroup.sum_eq]
    rfl
  rw [hgroups, sum_columns fun line hline => le_widest hline]

/-! ### Line pairs -/

/-- Both sides of these pairs are counted. -/
structure CountsPairs (pairs : List Pair) (v : Vocabulary) : Prop where
  source : Counts (pairs.map (·.source)) v.source
  target : Counts (pairs.map (·.target)) v.target

theorem countsPairs_foldl {before : List Pair} {v : Vocabulary} (pairs : List Pair)
    (h : CountsPairs before v) : CountsPairs (before ++ pairs) (pairs.foldl countPair v) := by
  induction pairs generalizing before v with
  | nil => rwa [List.append_nil]
  | cons pair rest ih =>
      have hpair : CountsPairs (before ++ [pair]) (v.countPair pair) := by
        refine ⟨?_, ?_⟩
        · rw [List.map_append]
          exact h.source.add pair.source
        · rw [List.map_append]
          exact h.target.add pair.target
      have hlater := ih hpair
      rwa [List.append_assoc, List.singleton_append] at hlater

theorem countsPairs_nil : CountsPairs [] {} := ⟨counts_nil, counts_nil⟩

theorem CountsPairs.unique {pairs copies : List Pair} {v other : Vocabulary}
    (h : CountsPairs pairs v) (hother : CountsPairs copies other) (hperm : pairs.Perm copies) :
    v = other := by
  have hsource := h.source.unique hother.source (hperm.map _)
  have htarget := h.target.unique hother.target (hperm.map _)
  cases v
  cases other
  simp only at hsource htarget
  rw [hsource, htarget]

/-! ### One file pair -/

/-- **Counting stops where indexing stops.**  Until then it counts every line pair. -/
theorem countLines_eq (settings : Settings) (fault : Option Fault) (pairs : List LinePair) :
    ∀ (tally : Tally) (v : Vocabulary), countLines fault v pairs
      = match (Harvest.ofLines settings fault tally pairs).fault? with
        | some fault => .error fault
        | none => .ok ((pairs.map (·.pair)).foldl countPair v) := by
  induction pairs with
  | nil => intro tally v; cases fault <;> rfl
  | cons found rest ih =>
      intro tally v
      cases hgroups : Admission.groupsMatch found.pair with
      | false =>
          rw [Harvest.fault?_ofLines_cons_of_mismatch hgroups, countLines, hgroups]
          rfl
      | true =>
          -- the tally goes on with this pair, but it has no say in where the lines stop
          rw [Harvest.fault?_ofLines_cons hgroups, countLines, hgroups, if_pos rfl,
            ih (Admission.count settings found.pair tally)]
          rfl

section files

variable {disk : Disk} {files : FilePair} {fault : Fault}

theorem countFiles_of_found {source target : Node} {result : Option Fault}
    (hsource : disk.find files.source = .ok source)
    (htarget : disk.find files.target = .ok target)
    (h : Harvest.ComesTo {} (TextLines.ofNode source) (TextLines.ofNode target) 0 result)
    (v : Vocabulary) : countFiles disk v files
      = match result with
        | some fault => .error (fault.within (.countingPair files.text))
        | none => .ok ((files.delivered disk).foldl countPair v) := by
  have hopen := FilePair.openReader_of_found hsource htarget
  rw [countFiles, FilePair.delivered, hopen]
  show within _ (countLines _ v _) = _
  rw [countLines_eq {} _ _ .empty v, h .empty]
  cases result <;> rfl

/-- All lines of files that end cleanly are counted. -/
theorem countFiles_of_endsCleanly (h : files.EndsCleanly disk) (v : Vocabulary) :
    countFiles disk v files = .ok ((files.delivered disk).foldl countPair v) := by
  obtain ⟨source, target, hsource, htarget, hend⟩ := h
  rw [countFiles_of_found hsource htarget (Harvest.comesTo_of_end hend)]

/-- Files that do not are not counted, for the same cause. -/
theorem countFiles_of_failsWith (h : files.FailsWith disk fault) (v : Vocabulary) :
    ∃ context, countFiles disk v files = .error ⟨fault.cause, context⟩ := by
  cases h with
  | sourceUnopened hsource =>
      rw [countFiles, FilePair.openReader_of_sourceUnopened hsource]
      exact ⟨_, rfl⟩
  | targetUnopened hsource htarget =>
      rw [countFiles, FilePair.openReader_of_targetUnopened hsource htarget]
      exact ⟨_, rfl⟩
  | stopped hsource htarget hfail =>
      rw [countFiles_of_found hsource htarget (Harvest.comesTo_of_fail hfail)]
      exact ⟨_, rfl⟩

end files

/-! ### All file pairs -/

section

variable {disk : Disk} {pairs : List FilePair} {fault : Fault}

theorem foldlM_countFiles_of_endsCleanly (h : ∀ files ∈ pairs, files.EndsCleanly disk)
    (v : Vocabulary) :
    pairs.foldlM (countFiles disk) v
      = .ok ((pairs.flatMap (·.delivered disk)).foldl countPair v) := by
  induction pairs generalizing v with
  | nil => rfl
  | cons files rest ih =>
      rw [List.foldlM_cons, countFiles_of_endsCleanly (h files List.mem_cons_self),
        List.flatMap_cons, List.foldl_append]
      exact ih (fun later hlater => h later (List.mem_cons_of_mem files hlater)) _

theorem foldlM_countFiles_of_firstFails (h : Build.FirstFails disk pairs fault) (v : Vocabulary) :
    ∃ context, pairs.foldlM (countFiles disk) v = .error ⟨fault.cause, context⟩ := by
  obtain ⟨before, files, after, rfl, hbefore, hfault⟩ := h
  obtain ⟨context, hcount⟩ := countFiles_of_failsWith hfault
    ((before.flatMap (·.delivered disk)).foldl countPair v)
  refine ⟨context, ?_⟩
  rw [List.foldlM_append, foldlM_countFiles_of_endsCleanly hbefore]
  show (files :: after).foldlM (countFiles disk) _ = _
  rw [List.foldlM_cons, hcount]
  rfl

end

theorem run_ofFiles (files : FileSet) (w : Workspace) :
    ((ofFiles files).run w).1 = files.pairs.foldlM (countFiles w.disk) {} := by
  simp only [ofFiles, Job.run_bind, Job.run_get, Job.run_ofExcept]
  cases files.pairs.foldlM (countFiles w.disk) {} <;> rfl

/-- The two lines of a pair that files deliver which end cleanly have the same number of groups. -/
theorem groupCount_eq_of_delivered {disk : Disk} {files : FilePair} {pair : Pair}
    (h : files.EndsCleanly disk) (hpair : pair ∈ files.delivered disk) :
    Line.groupCount pair.source = Line.groupCount pair.target := by
  unfold FilePair.delivered at hpair
  split at hpair
  · rename_i reader hopen
    obtain ⟨found, hfound, rfl⟩ := List.mem_map.mp hpair
    by_contra hgroups
    refine (Harvest.not_faulty_iff_endsCleanly {}).mpr h (.mismatched hopen hfound ?_)
    rw [Admission.groupsMatch, beq_eq_false_iff_ne]
    exact hgroups
  · cases hpair

section

variable {settings : Settings} {files : FileSet} {w : Workspace} {v : Vocabulary} {fault : Fault}

theorem run_ofFiles_of_endsCleanly (h : ∀ pair ∈ files.pairs, pair.EndsCleanly w.disk) :
    ((ofFiles files).run w).1
      = .ok ((files.pairs.flatMap (·.delivered w.disk)).foldl countPair {}) := by
  rw [run_ofFiles, foldlM_countFiles_of_endsCleanly h]

theorem run_ofFiles_of_firstFails (h : Build.FirstFails w.disk files.pairs fault) :
    ∃ context, ((ofFiles files).run w).1 = .error ⟨fault.cause, context⟩ := by
  rw [run_ofFiles]
  exact foldlM_countFiles_of_firstFails h {}

/-- Counting succeeds on files that end cleanly, and on no others. -/
theorem endsCleanly_of_run_ofFiles (h : ((ofFiles files).run w).1 = .ok v) :
    ∀ pair ∈ files.pairs, pair.EndsCleanly w.disk := by
  rcases Build.firstFails_or_all_endCleanly w.disk files.pairs with hall | ⟨fault, hfails⟩
  · exact hall
  · obtain ⟨context, hfailed⟩ := run_ofFiles_of_firstFails hfails
    cases h.symm.trans hfailed

/-- The vocabulary of these line pairs, whatever file they come from: as many groups as the widest
line has, and in each of them the tokens of all lines. -/
structure OfPairs (pairs : List Pair) (v : Vocabulary) : Prop where
  matched : ∀ pair ∈ pairs, Line.groupCount pair.source = Line.groupCount pair.target
  counts : CountsPairs pairs v
  sameWidth : v.source.length = v.target.length
  sourceTotal : (v.source.map total).sum = (pairs.map fun pair => Line.tokenCount pair.source).sum
  targetTotal : (v.target.map total).sum = (pairs.map fun pair => Line.tokenCount pair.target).sum

theorem CountsPairs.ofPairs {pairs : List Pair} (h : CountsPairs pairs v)
    (hmatched : ∀ pair ∈ pairs, Line.groupCount pair.source = Line.groupCount pair.target) :
    OfPairs pairs v where
  matched := hmatched
  counts := h
  sameWidth := by
    have hgroups : pairs.map (Line.groupCount ∘ (·.source))
        = pairs.map (Line.groupCount ∘ (·.target)) := List.map_congr_left hmatched
    rw [h.source.width, h.target.width, widest, widest, List.map_map, List.map_map, hgroups]
  sourceTotal := by rw [h.source.total_eq, List.map_map]; rfl
  targetTotal := by rw [h.target.total_eq, List.map_map]; rfl

theorem ofPairs_of_endsCleanly (h : ∀ pair ∈ files.pairs, pair.EndsCleanly w.disk)
    (hrun : ((ofFiles files).run w).1 = .ok v) :
    OfPairs (files.pairs.flatMap (·.delivered w.disk)) v := by
  rw [run_ofFiles_of_endsCleanly h] at hrun
  obtain rfl := Except.ok.inj hrun
  refine (countsPairs_foldl _ countsPairs_nil).ofPairs ?_
  intro pair hpair
  obtain ⟨origin, horigin, hpair⟩ := List.mem_flatMap.mp hpair
  exact groupCount_eq_of_delivered (h origin horigin) hpair

/-- The order of the files makes no difference to their vocabulary. -/
theorem run_ofFiles_perm {copies : FileSet} (h : ((ofFiles files).run w).1 = .ok v)
    (hperm : files.pairs.Perm copies.pairs) : ((ofFiles copies).run w).1 = .ok v := by
  have hclean := endsCleanly_of_run_ofFiles h
  have hcopies : ∀ pair ∈ copies.pairs, pair.EndsCleanly w.disk := by
    intro pair hpair
    exact hclean pair (hperm.mem_iff.mpr hpair)
  have hrun := run_ofFiles_of_endsCleanly hcopies
  have hsame := (ofPairs_of_endsCleanly hcopies hrun).counts.unique
    (ofPairs_of_endsCleanly hclean h).counts (hperm.symm.flatMap_right _)
  rw [hrun, hsame]

/-- Counting succeeds with a build that reads in turn, and fails for the same cause. -/
theorem run_ofFiles_agrees_with_index (hturn : settings.workers = 0 ∨ files.size = 1)
    (hcreate : ∃ file disk, w.disk.createTemporary settings.tempDir BlobWriter.ending
      = (.ok file, disk))
    (hwritable : Build.Writable settings w.disk files.pairs) :
    ((∃ v, ((ofFiles files).run w).1 = .ok v) ↔
      ∃ built, ((Build.index settings files).run w).1 = .ok built) ∧
    ∀ fault other, ((ofFiles files).run w).1 = .error fault →
      ((Build.index settings files).run w).1 = .error other → fault.cause = other.cause := by
  rcases Build.firstFails_or_all_endCleanly w.disk files.pairs with hall | ⟨fault, hfails⟩
  · have hcounted := run_ofFiles_of_endsCleanly hall
    obtain ⟨built, after, hbuilt⟩ :=
      Build.index_ok_iff.mpr ⟨hcreate, hall, hwritable.of_all_endCleanly hall⟩
    refine ⟨⟨fun _ => ⟨built, by rw [hbuilt]⟩, fun _ => ⟨_, hcounted⟩⟩, ?_⟩
    intro fault other hfault
    cases hcounted.symm.trans hfault
  · obtain ⟨context, hcounted⟩ := run_ofFiles_of_firstFails hfails
    have hbuilt := Build.run_index_of_firstFails (Build.not_isShared hturn) hcreate hwritable hfails
    refine ⟨⟨?_, ?_⟩, ?_⟩
    · rintro ⟨v, h⟩
      cases hcounted.symm.trans h
    · rintro ⟨built, h⟩
      cases hbuilt.symm.trans h
    · intro first other hfirst hother
      cases hcounted.symm.trans hfirst
      cases hbuilt.symm.trans hother
      rfl

/-- **Counting agrees with indexing and with the lines.**  Whenever an index is built in turn, with
a file for its blob and pairs that can be written, the tokens are counted exactly when the index is
built, and otherwise both fail for the same cause.  The vocabulary that comes out has as many groups
on either side as the widest line that was delivered; in each group it has the tokens of all lines,
however long they are, with the number of their occurrences and no others, so that they add up to
the tokens of the side; and it comes out the same in any order of the files. -/
theorem counting_agrees_with_indexing (files : FileSet) (w : Workspace) :
    (∀ settings : Settings, settings.workers = 0 ∨ files.size = 1 →
      (∃ file disk, w.disk.createTemporary settings.tempDir BlobWriter.ending = (.ok file, disk)) →
      Build.Writable settings w.disk files.pairs →
      ((∃ v, ((ofFiles files).run w).1 = .ok v) ↔
        ∃ built, ((Build.index settings files).run w).1 = .ok built) ∧
      ∀ fault other, ((ofFiles files).run w).1 = .error fault →
        ((Build.index settings files).run w).1 = .error other → fault.cause = other.cause) ∧
    ∀ v, ((ofFiles files).run w).1 = .ok v →
      OfPairs (files.pairs.flatMap (·.delivered w.disk)) v ∧
      ∀ copies : FileSet, files.pairs.Perm copies.pairs → ((ofFiles copies).run w).1 = .ok v := by
  refine ⟨fun settings => run_ofFiles_agrees_with_index, fun v h => ⟨?_, ?_⟩⟩
  · exact ofPairs_of_endsCleanly (endsCleanly_of_run_ofFiles h) h
  · intro copies hperm
    exact run_ofFiles_perm h hperm

end

/-- A disk with a line of two groups and its translation, a line of one group and its translation,
and a folder for temporary files. -/
def tagged : Disk where
  entries := [([.given "a"], .file "the\tN\n".toUTF8),
    ([.given "b"], .file "die\tX\n".toUTF8), ([.given "c"], .file "the\n".toUTF8),
    ([.given "d"], .file "der\n".toUTF8), ([.given "tmp"], .folder)]

/-- The files of the disk, the line of one group first. -/
def taggedFiles : FileSet where
  folder := ⟨""⟩
  pairs := [⟨⟨"/c"⟩, ⟨"/d"⟩⟩, ⟨⟨"/a"⟩, ⟨"/b"⟩⟩]

/-- The second line brings a group of its own and adds to the first one. -/
theorem tagged_words_are_counted :
    ∃ v, ((ofFiles taggedFiles).run ⟨tagged, #[]⟩).1 = .ok v ∧
      (∃ built, ((Build.index Build.inTurn taggedFiles).run ⟨tagged, #[]⟩).1 = .ok built) ∧
      v.source.length = 2 ∧
      (v.source.getD 0 ∅)["the"]? = some 2 ∧ (v.source.getD 1 ∅)["the"]? = none ∧
      ((ofFiles ⟨⟨""⟩, taggedFiles.pairs.reverse⟩).run ⟨tagged, #[]⟩).1 = .ok v := by
  have hcreate : ∃ file disk, tagged.createTemporary Build.inTurn.tempDir BlobWriter.ending
      = (.ok file, disk) := by
    refine Disk.createTemporary_ok_iff.mpr ⟨by decide, ?_, rfl⟩
    exact ⟨[.given "tmp"], by cbv⟩
  have hwritable : Build.Writable Build.inTurn tagged taggedFiles.pairs := by
    refine Build.writable_of_fits ?_
    have hadmitted : Build.admitted Build.inTurn tagged taggedFiles.pairs
        = [⟨⟨"the", "der"⟩, 1, 1, false, 1⟩,
          ⟨⟨"the\tN", "die\tX"⟩, 2, 2, false, 1⟩] := by cbv
    rw [hadmitted]
    decide
  have hdelivered : taggedFiles.pairs.flatMap (·.delivered tagged)
      = [⟨"the", "der"⟩, ⟨"the\tN", "die\tX"⟩] := by cbv
  have hcounted : ((ofFiles taggedFiles).run ⟨tagged, #[]⟩).1.isOk = true := by cbv
  obtain ⟨hindex, hcounts⟩ := counting_agrees_with_indexing taggedFiles ⟨tagged, #[]⟩
  obtain ⟨hbuilt, -⟩ := hindex Build.inTurn (.inl rfl) hcreate hwritable
  cases hv : ((ofFiles taggedFiles).run ⟨tagged, #[]⟩).1 with
  | error fault =>
      rw [hv] at hcounted
      cases hcounted
  | ok v =>
      obtain ⟨hpairs, hperm⟩ := hcounts v hv
      rw [hdelivered] at hpairs
      rw [hv] at hbuilt
      refine ⟨v, rfl, hbuilt.mp ⟨v, rfl⟩, ?_, ?_, ?_, hperm _ (List.reverse_perm _).symm⟩
      · rw [hpairs.counts.source.width]
        decide
      · rw [hpairs.counts.source.group 0]
        decide
      · rw [hpairs.counts.source.group 1]
        decide

end Bitext.Vocabulary
