/-
Sessions: what a caller does with a corpus over time.

A caller prepares epochs, opens them, reads batches from several streams side by side and
gives up what is no longer needed, in any order.  A session is a corpus together with the
epochs and streams that are held, each under a name.  Something new under a name that is
taken puts an end to the old one, after it has come into being itself.

What a temporary folder holds after any number of operations can be read off a session:
one file for each epoch that is held, and one for each stream that has not ended.
-/
import Bitext.Corpus

namespace Bitext

/-- Something that owns a temporary file. -/
inductive Holding where
  | epoch (e : Epoch)
  | stream (s : BatchStream)

/-- Gives up what is held. -/
def Holding.drop : Holding → Work Unit
  | .epoch e => e.drop
  | .stream s => s.drop

/-- A corpus, and the epochs and streams that are held. -/
structure Session (σ : Type) where
  corpus : Corpus σ
  held : List (String × Holding) := []

/-- What can be done in a session. -/
inductive Operation where
  /-- Prepares an epoch and holds it. -/
  | prepare (name : String) (epoch : Nat)
  /-- Opens the epoch that is held and holds its stream in its place. -/
  | openHeld (name : String)
  /-- Prepares the next epoch, opens it and holds the stream. -/
  | iterate (name : String)
  /-- Reads a batch from the stream that is held. -/
  | next (name : String)
  /-- Reads the stream that is held to its end. -/
  | drain (name : String)
  /-- Gives up what is held. -/
  | drop (name : String)
  /-- Prepares an epoch and reads it from start to end. -/
  | pass (epoch : Nat)
  deriving DecidableEq, Repr

/-- What an operation came to. -/
inductive Outcome where
  | failed (fault : Fault)
  | prepared (e : Epoch)
  | opened (total : Nat)
  | batch (result : Option (Except Fault (Nat × Batch))) (read : Nat)
  | drained (results : List (Except Fault Batch))
  | dropped (wasHeld : Bool)
  | passed (e : Epoch) (results : List (Except Fault Batch))
  /-- Nothing of the needed kind is held under the name. -/
  | notHeld

namespace Session

variable {σ : Type}

/-- What is held under a name. -/
def held? (session : Session σ) (name : String) : Option Holding := session.held.lookup name

/-- The session in which nothing is held under a name. -/
def forget (session : Session σ) (name : String) : Session σ :=
  { session with held := session.held.filter (·.1 != name) }

/-- The session in which something is held under a name in place of what was. -/
def replace (session : Session σ) (name : String) (holding : Holding) : Session σ :=
  { session with held := (name, holding) :: (session.forget name).held }

/-- Holds something under a name, and gives up what was held there. -/
def hold (session : Session σ) (name : String) (holding : Holding) : Work (Session σ) := do
  match session.held? name with
  | some old => old.drop
  | none => pure ()
  return session.replace name holding

/-- Carries out an operation. -/
def perform (session : Session σ) : Operation → Work (Outcome × Session σ)
  | .prepare name epoch => do
      match ← session.corpus.prepare epoch with
      | (.error fault, corpus) => return (.failed fault, { session with corpus })
      | (.ok e, corpus) =>
          return (.prepared e, ← { session with corpus }.hold name (.epoch e))
  | .openHeld name => do
      match session.held? name with
      | some (.epoch e) =>
          match ← e.openStream.run with
          | .error fault => return (.failed fault, session.forget name)
          | .ok stream => return (.opened stream.total, session.replace name (.stream stream))
      | _ => return (.notHeld, session)
  | .iterate name => do
      match ← session.corpus.iterate with
      | (.error fault, corpus) => return (.failed fault, { session with corpus })
      | (.ok stream, corpus) =>
          return (.opened stream.total, ← { session with corpus }.hold name (.stream stream))
  | .next name => do
      match session.held? name with
      | some (.stream stream) =>
          let (result, stream) ← stream.nextNumbered
          return (.batch result stream.read, session.replace name (.stream stream))
      | _ => return (.notHeld, session)
  | .drain name => do
      match session.held? name with
      | some (.stream stream) => return (.drained (← stream.drain), session.forget name)
      | _ => return (.notHeld, session)
  | .drop name => do
      match session.held? name with
      | some holding =>
          holding.drop
          return (.dropped true, session.forget name)
      | none => return (.dropped false, session)
  | .pass epoch => do
      match ← session.corpus.prepare epoch with
      | (.error fault, corpus) => return (.failed fault, { session with corpus })
      | (.ok e, corpus) =>
          match ← e.openStream.run with
          | .error fault => return (.failed fault, { session with corpus })
          | .ok stream => return (.passed e (← stream.drain), { session with corpus })

/-- Carries out operations in order. -/
def performAll (session : Session σ) : List Operation → Work (List Outcome × Session σ)
  | [] => return ([], session)
  | operation :: rest => do
      let (outcome, session) ← session.perform operation
      let (outcomes, session) ← session.performAll rest
      return (outcome :: outcomes, session)

end Session

end Bitext
