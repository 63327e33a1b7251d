/-
Where the reading of a file pair ends, and with which fault.

Line by line, a file pair either goes on, or ends, or fails; which of the three is read off
the two lines at that place and nothing else.  A reading goes on from the first line until
it ends or fails, so the first place where it does not go on decides it, and what stands
behind that place is never looked at.

The reader stands at a place with what the files have left, and its step is one of the
three.  The rest is an induction from the deciding place back to the first line.
-/
import Mathlib.Data.Nat.Find
import Bitext.Proofs.Source.Delivered

namespace Bitext

/-- The lines of an opened file, each as text or with the reason why it is none. -/
abbrev Lines := List (Except Cause String)

/-! ### A place in two files

Places are counted from zero, lines from one.
-/

namespace Lines

variable {source target : Lines} {n : Nat} {fault : Fault}

/-- Both files have a line here, not both lines are blank, and their groups match. -/
def GoOn (source target : Lines) (n : Nat) : Prop :=
  ∃ left right, source[n]? = some (.ok left) ∧ target[n]? = some (.ok right) ∧
    ¬(left = "" ∧ right = "") ∧ Line.groupCount left = Line.groupCount right

/-- Nothing more belongs to the file pair: both files have ended or have a blank line. -/
inductive EndAt (source target : Lines) (n : Nat) : Prop where
  | together : source[n]? = none → target[n]? = none → EndAt source target n
  | blank : source[n]? = some (.ok "") → target[n]? = some (.ok "") → EndAt source target n
  | sourceEnded : source[n]? = none → target[n]? = some (.ok "") → EndAt source target n
  | targetEnded : source[n]? = some (.ok "") → target[n]? = none → EndAt source target n

/-- The lines here are at fault.  A source line that cannot be read comes first, then a target
line that cannot be read, then a file that has ended. -/
inductive FailAt (source target : Lines) (n : Nat) : Fault → Prop where
  | sourceUnread {cause : Cause} :
      source[n]? = some (.error cause) →
      FailAt source target n ⟨cause, [.readingLine .source (n + 1)]⟩
  | targetUnread {cause : Cause} :
      (∀ other, source[n]? ≠ some (.error other)) → target[n]? = some (.error cause) →
      FailAt source target n ⟨cause, [.readingLine .target (n + 1)]⟩
  | sourceEnded {right : String} :
      source[n]? = none → target[n]? = some (.ok right) → right ≠ "" →
      FailAt source target n ⟨.unbalancedEnd (n + 1) .source, []⟩
  | targetEnded {left : String} :
      source[n]? = some (.ok left) → target[n]? = none → left ≠ "" →
      FailAt source target n ⟨.unbalancedEnd (n + 1) .target, []⟩
  | mismatched {left right : String} :
      source[n]? = some (.ok left) → target[n]? = some (.ok right) →
      Line.groupCount left ≠ Line.groupCount right →
      FailAt source target n
        ⟨.groupMismatch (n + 1) (Line.groupCount left) (Line.groupCount right), []⟩

/-- The first lines go on, and then both files end. -/
def End (source target : Lines) : Prop :=
  ∃ n, (∀ i < n, GoOn source target i) ∧ EndAt source target n

/-- The first lines go on, and the next ones are at fault. -/
def Fail (source target : Lines) (fault : Fault) : Prop :=
  ∃ n, (∀ i < n, GoOn source target i) ∧ FailAt source target n fault

theorem goOn_or_endAt_or_failAt (source target : Lines) (n : Nat) :
    GoOn source target n ∨ EndAt source target n ∨ ∃ fault, FailAt source target n fault := by
  cases hsource : source[n]? with
  | none =>
      cases htarget : target[n]? with
      | none => exact .inr (.inl (.together hsource htarget))
      | some line =>
          cases line with
          | error cause => exact .inr (.inr ⟨_, .targetUnread (by simp [hsource]) htarget⟩)
          | ok right =>
              by_cases hblank : right = ""
              · subst hblank
                exact .inr (.inl (.sourceEnded hsource htarget))
              · exact .inr (.inr ⟨_, .sourceEnded hsource htarget hblank⟩)
  | some line =>
      cases line with
      | error cause => exact .inr (.inr ⟨_, .sourceUnread hsource⟩)
      | ok left =>
          cases htarget : target[n]? with
          | none =>
              by_cases hblank : left = ""
              · subst hblank
                exact .inr (.inl (.targetEnded hsource htarget))
              · exact .inr (.inr ⟨_, .targetEnded hsource htarget hblank⟩)
          | some line =>
              cases line with
              | error cause => exact .inr (.inr ⟨_, .targetUnread (by simp [hsource]) htarget⟩)
              | ok right =>
                  by_cases hblank : left = "" ∧ right = ""
                  · obtain ⟨rfl, rfl⟩ := hblank
                    exact .inr (.inl (.blank hsource htarget))
                  · by_cases hgroups : Line.groupCount left = Line.groupCount right
                    · exact .inl ⟨left, right, hsource, htarget, hblank, hgroups⟩
                    · exact .inr (.inr ⟨_, .mismatched hsource htarget hgroups⟩)

/-- Two files end or fail, since they are finite. -/
theorem end_or_fail (source target : Lines) :
    End source target ∨ ∃ fault, Fail source target fault := by
  classical
  have hstops : ∃ n, ¬GoOn source target n := by
    refine ⟨source.length, ?_⟩
    rintro ⟨left, right, hleft, -⟩
    rw [List.getElem?_eq_none (Nat.le_refl _)] at hleft
    cases hleft
  have hbefore : ∀ i < Nat.find hstops, GoOn source target i := by
    intro i hi
    exact not_not.mp (Nat.find_min hstops hi)
  rcases goOn_or_endAt_or_failAt source target (Nat.find hstops) with hgo | hend | ⟨fault, hfail⟩
  · exact absurd hgo (Nat.find_spec hstops)
  · exact .inl ⟨_, hbefore, hend⟩
  · exact .inr ⟨fault, _, hbefore, hfail⟩

end Lines

/-! ### A reader at a place -/

namespace LineReader

variable {source target : Lines} {n : Nat}

/-- The reader that has delivered the lines before a place. -/
def standing (source target : Lines) (n : Nat) : LineReader :=
  ⟨source.drop n, target.drop n, n, false⟩

theorem drop_of_none {lines : Lines} (h : lines[n]? = none) : lines.drop n = [] :=
  List.drop_eq_nil_of_le (List.getElem?_eq_none_iff.mp h)

theorem drop_of_some {lines : Lines} {line : Except Cause String} (h : lines[n]? = some line) :
    lines.drop n = line :: lines.drop (n + 1) := by
  obtain ⟨hlt, rfl⟩ := List.getElem?_eq_some_iff.mp h
  exact List.drop_eq_getElem_cons hlt

/-- Two lines that are not both blank are delivered. -/
theorem step_of_text {left right : String} (hsource : source[n]? = some (.ok left))
    (htarget : target[n]? = some (.ok right)) (hblank : ¬(left = "" ∧ right = "")) :
    (standing source target n).step
      = .delivered ⟨n + 1, ⟨left, right⟩⟩ (standing source target (n + 1)) := by
  rw [standing, drop_of_some hsource, drop_of_some htarget]
  exact if_neg hblank

theorem step_of_endAt (h : Lines.EndAt source target n) :
    (standing source target n).step = .ended := by
  cases h with
  | together hsource htarget =>
      rw [standing, drop_of_none hsource, drop_of_none htarget]
      rfl
  | blank hsource htarget =>
      rw [standing, drop_of_some hsource, drop_of_some htarget]
      rfl
  | sourceEnded hsource htarget =>
      rw [standing, drop_of_none hsource, drop_of_some htarget]
      rfl
  | targetEnded hsource htarget =>
      rw [standing, drop_of_some hsource, drop_of_none htarget]
      rfl

/-- A fault stops the step, or it comes with the two lines that differ in their groups. -/
theorem step_of_failAt {fault : Fault} (h : Lines.FailAt source target n fault) :
    (standing source target n).step = .failed fault ∨
      ∃ left right, Line.groupCount left ≠ Line.groupCount right ∧
        fault = ⟨.groupMismatch (n + 1) (Line.groupCount left) (Line.groupCount right), []⟩ ∧
        (standing source target n).step
          = .delivered ⟨n + 1, ⟨left, right⟩⟩ (standing source target (n + 1)) := by
  cases h with
  | sourceUnread hsource =>
      left
      rw [standing, drop_of_some hsource]
      rfl
  | targetUnread hread htarget =>
      left
      rw [standing, drop_of_some htarget]
      cases hsource : source[n]? with
      | none =>
          rw [drop_of_none hsource]
          rfl
      | some line =>
          rw [drop_of_some hsource]
          cases line with
          | error other => exact absurd hsource (hread other)
          | ok left => rfl
  | sourceEnded hsource htarget hblank =>
      left
      rw [standing, drop_of_none hsource, drop_of_some htarget]
      exact if_neg hblank
  | targetEnded hsource htarget hblank =>
      left
      rw [standing, drop_of_some hsource, drop_of_none htarget]
      exact if_neg hblank
  | @mismatched left right hsource htarget hgroups =>
      right
      refine ⟨left, right, hgroups, rfl, step_of_text hsource htarget ?_⟩
      rintro ⟨rfl, rfl⟩
      exact hgroups rfl

end LineReader

end Bitext
