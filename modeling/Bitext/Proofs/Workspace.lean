/-
Jobs, run step by step.

A job is run on a workspace and gives a result and the workspace after it.  The equations
here say what each way of putting jobs together does, so that a longer job can be taken
apart from its beginning.
-/
import Bitext.Workspace

namespace Bitext.Job

variable {α β : Type}

theorem run_bind (job : Job α) (next : α → Job β) (w : Workspace) :
    (job >>= next).run w
      = (match job.run w with
        | (.ok a, after) => (next a).run after
        | (.error fault, after) => (.error fault, after)) := by
  show (match job.run w with
    | (result, after) => (ExceptT.bindCont next result).run after) = _
  cases job.run w with
  | mk result after => cases result <;> rfl

theorem run_throw (fault : Fault) (w : Workspace) :
    (throw fault : Job α).run w = (.error fault, w) := rfl

theorem run_lift (work : Work α) (w : Workspace) :
    (liftM work : Job α).run w = (.ok (work.run w).1, (work.run w).2) := rfl

theorem run_ofExcept (result : Except Fault α) (w : Workspace) :
    (ofExcept result).run w = (result, w) := rfl

theorem run_get (w : Workspace) : (get : Job Workspace).run w = (.ok w, w) := rfl

theorem run_attempt (job : Job α) (w : Workspace) :
    (attempt job).run w = (.ok (job.run w).1, (job.run w).2) := rfl

end Bitext.Job

namespace Bitext.Work

variable {α β : Type}

theorem run_bind (work : Work α) (next : α → Work β) (w : Workspace) :
    (work >>= next).run w = (next (work.run w).1).run (work.run w).2 := rfl

end Bitext.Work

namespace Bitext.Workspace

theorem run_report (event : Event) (w : Workspace) :
    (report event).run w = ((), { w with log := w.log.push event }) := rfl

theorem run_reportAll (events : List Event) (w : Workspace) :
    (reportAll events).run w = ((), { w with log := w.log ++ events }) := rfl

theorem run_discard (file : TemporaryFile) (w : Workspace) :
    (discard file).run w = ((), { w with disk := w.disk.erase file.location }) := rfl

theorem run_delete (file : TemporaryFile) (w : Workspace) :
    (delete file).run w
      = (match w.disk.remove file.location with
        | .ok disk => (none, { w with disk })
        | .error reason => (some reason, w)) := by
  unfold delete onDisk
  simp only [Work.run_bind, StateT.run_get, pure]
  cases w.disk.remove file.location <;> rfl

theorem run_newTemporary (folder : Path) (ending : String) (w : Workspace) :
    (newTemporary folder ending).run w
      = ((w.disk.createTemporary folder ending).1,
        { w with disk := (w.disk.createTemporary folder ending).2 }) := by
  unfold newTemporary onDisk
  simp only [StateT.run_bind, StateT.run_get, StateT.run_modify, pure_bind]
  rfl

theorem run_overwrite (file : TemporaryFile) (bytes : ByteArray) (w : Workspace) :
    (overwrite file bytes).run w
      = ((), { w with
          disk := if w.disk.isFile file.location then w.disk.put file.location (.file bytes)
            else w.disk }) := rfl

theorem run_bytesOf (file : TemporaryFile) (w : Workspace) :
    (bytesOf file).run w = (w.disk.bytesAt file.location, w) := rfl

end Bitext.Workspace
