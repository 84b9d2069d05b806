import EnoceanCore.ErrorHandler.Handler

/-!
# Pipelines of error handlers

A pipeline is a sequence of `and_then`, `transform`, `or_else` and `transform_error` stages with
arbitrary functions, which change the types of the value and of the error as they like. It runs
over error handlers (`Pipeline.run`) and over plain results (`Pipeline.plain`), where only the
errors that are created are on record: those a function creates, and one for each error that a
`transform_error` stage replaces.

Both end with one result. The log has one record for each error created and one for each stage
that passes an error on, so it is the log of the errors created if and only if no `and_then` and
no `transform` is reached by an error (`logged_once_iff`).
-/

namespace EnoceanCore

open Lib

/-! ## Stages -/

/-- A stage of a pipeline. Its function has a plain result and keeps account of the errors it
creates. -/
inductive Stage : Type → ErrorEnum → Type → ErrorEnum → Type 1
  | andThen {T U : Type} {E : ErrorEnum} (o : Overload)
      (f : RefQualifier → T → Traced Creation (Except E.Code U)) : Stage T E U E
  | transform {T U : Type} {E : ErrorEnum} (o : Overload)
      (f : RefQualifier → T → Traced Creation U) : Stage T E U E
  | orElse {T : Type} {E G : ErrorEnum} (o : Overload)
      (f : RefQualifier → E.Code → Traced Creation (Except G.Code T)) : Stage T E T G
  | transformError {T : Type} {E G : ErrorEnum} (o : Overload)
      (f : RefQualifier → E.Code → Traced Creation G.Code) : Stage T E T G

/-- What a function writes to the log: each error it creates writes its record. -/
def logged {α : Type} (x : Traced Creation α) : Traced LogRecord α :=
  ⟨x.val, x.log.map Creation.record⟩

/-- A function that returns an error handler. -/
def handled {T : Type} {E : ErrorEnum} (x : Traced Creation (Except E.Code T)) :
    Traced LogRecord (ErrorHandler T E) := do
  return ⟨← logged x⟩

theorem log_handled {T : Type} {E : ErrorEnum} (x : Traced Creation (Except E.Code T)) :
    (handled x).log = x.log.map Creation.record := List.append_nil _

namespace Stage

variable {T U : Type} {E G : ErrorEnum}

/-- A stage over error handlers. -/
def run : Stage T E U G → ErrorHandler T E → Traced LogRecord (ErrorHandler U G)
  | andThen o f, h => h.andThen o fun q value => handled (f q value)
  | transform o f, h => h.transform o fun q value => logged (f q value)
  | orElse o f, h => h.orElse o fun q error => handled (f q error)
  | transformError o f, h => h.transformError o fun q error => logged (f q error)

/-- A stage over plain results: errors pass in silence, and a `transform_error` stage creates
the error it returns. -/
def plain : Stage T E U G → Except E.Code T → Traced Creation (Except G.Code U)
  | andThen o f, .ok value => f o.qualifier value
  | andThen _ _, .error error => return .error error
  | transform o f, .ok value => do return .ok (← f o.qualifier value)
  | transform _ _, .error error => return .error error
  | orElse _ _, .ok value => return .ok value
  | orElse o f, .error error => f o.qualifier error
  | transformError _ _, .ok value => return .ok value
  | transformError (G := G) o f, .error error => do
    let error ← f o.qualifier error
    Traced.emit ⟨o.functionName, G.name error, some "Error transformed"⟩
    return .error error

/-- The error that a stage passes on, as the constructor is called with it. -/
def passedOn : Stage T E U G → Except E.Code T → List Creation
  | andThen (E := E) o _, .error error => [⟨o.functionName, E.name error, none⟩]
  | transform (E := E) o _, .error error => [⟨o.functionName, E.name error, none⟩]
  | _, _ => []

/-- No error reaches an `and_then` or a `transform`. -/
def Quiet : Stage T E U G → Except E.Code T → Prop
  | andThen _ _, .error _ => False
  | transform _ _, .error _ => False
  | _, _ => True

theorem passedOn_eq_nil_iff (stage : Stage T E U G) (r : Except E.Code T) :
    stage.passedOn r = [] ↔ stage.Quiet r := by
  cases stage with
  | andThen o f =>
    cases r with
    | ok value => exact iff_of_true rfl trivial
    | error error => exact iff_of_false (List.cons_ne_nil _ _) id
  | transform o f =>
    cases r with
    | ok value => exact iff_of_true rfl trivial
    | error error => exact iff_of_false (List.cons_ne_nil _ _) id
  | orElse o f => exact iff_of_true rfl trivial
  | transformError o f => exact iff_of_true rfl trivial

theorem run_val (stage : Stage T E U G) (h : ErrorHandler T E) :
    (stage.run h).val.internalResult = (stage.plain h.internalResult).val := by
  obtain ⟨r⟩ := h
  cases stage with
  | andThen o f => cases r <;> rfl
  | transform o f => cases r <;> rfl
  | orElse o f => cases r <;> rfl
  | transformError o f => cases r <;> rfl

/-- A stage writes the errors created and the error passed on. -/
theorem run_log (stage : Stage T E U G) (h : ErrorHandler T E) :
    (stage.run h).log = ((stage.plain h.internalResult).log ++
      stage.passedOn h.internalResult).map Creation.record := by
  obtain ⟨r⟩ := h
  cases stage with
  | andThen o f =>
    cases r with
    | ok value =>
      show (handled (f o.qualifier value)).log = List.map _ ((f o.qualifier value).log ++ [])
      rw [log_handled, List.append_nil]
    | error error => rfl
  | transform o f =>
    cases r with
    | ok value =>
      show ((f o.qualifier value).log.map _) ++ [] =
        List.map _ (((f o.qualifier value).log ++ []) ++ [])
      rw [List.append_nil, List.append_nil, List.append_nil]
    | error error => rfl
  | orElse o f =>
    cases r with
    | ok value => rfl
    | error error =>
      show (handled (f o.qualifier error)).log = List.map _ ((f o.qualifier error).log ++ [])
      rw [log_handled, List.append_nil]
  | transformError o f =>
    cases r with
    | ok value => rfl
    | error error =>
      show ((f o.qualifier error).log.map Creation.record) ++ _ =
        List.map _ (((f o.qualifier error).log ++ _) ++ [])
      rw [List.append_nil, List.map_append]
      rfl

end Stage

/-! ## Pipelines -/

/-- Stages one after another. -/
inductive Pipeline : Type → ErrorEnum → Type → ErrorEnum → Type 1
  | done {T : Type} {E : ErrorEnum} : Pipeline T E T E
  | stage {T U V : Type} {E G F : ErrorEnum} (first : Stage T E U G) (rest : Pipeline U G V F) :
      Pipeline T E V F

namespace Pipeline

variable {T V : Type} {E F : ErrorEnum}

/-- A pipeline over error handlers. -/
def run {T V : Type} {E F : ErrorEnum} :
    Pipeline T E V F → ErrorHandler T E → Traced LogRecord (ErrorHandler V F)
  | done, h => pure h
  | stage first rest, h => first.run h >>= rest.run

/-- A pipeline over plain results. -/
def plain {T V : Type} {E F : ErrorEnum} :
    Pipeline T E V F → Except E.Code T → Traced Creation (Except F.Code V)
  | done, r => pure r
  | stage first rest, r => first.plain r >>= rest.plain

/-- The errors that the stages pass on. -/
def passedOn {T V : Type} {E F : ErrorEnum} : Pipeline T E V F → Except E.Code T → List Creation
  | done, _ => []
  | stage first rest, r => first.passedOn r ++ rest.passedOn (first.plain r).val

/-- No error reaches an `and_then` or a `transform` of the pipeline. -/
def Quiet {T V : Type} {E F : ErrorEnum} : Pipeline T E V F → Except E.Code T → Prop
  | done, _ => True
  | stage first rest, r => first.Quiet r ∧ rest.Quiet (first.plain r).val

theorem passedOn_eq_nil_iff (p : Pipeline T E V F) (r : Except E.Code T) :
    p.passedOn r = [] ↔ p.Quiet r := by
  induction p with
  | done => exact iff_of_true rfl trivial
  | stage first rest ih =>
    show first.passedOn r ++ rest.passedOn _ = [] ↔ first.Quiet r ∧ rest.Quiet _
    rw [List.append_eq_nil_iff, first.passedOn_eq_nil_iff, ih]

theorem run_val (p : Pipeline T E V F) (h : ErrorHandler T E) :
    (p.run h).val.internalResult = (p.plain h.internalResult).val := by
  induction p with
  | done => rfl
  | stage first rest ih =>
    show (rest.run (first.run h).val).val.internalResult = (rest.plain _).val
    rw [ih, first.run_val]

/-- The log of a pipeline: the errors created and the errors passed on, in some order. -/
theorem run_log_perm (p : Pipeline T E V F) (h : ErrorHandler T E) :
    (p.run h).log.Perm (((p.plain h.internalResult).log ++
      p.passedOn h.internalResult).map Creation.record) := by
  induction p with
  | done => exact List.Perm.refl _
  | stage first rest ih =>
    have hrest := ih (first.run h).val
    rw [first.run_val] at hrest
    show ((first.run h).log ++ (rest.run (first.run h).val).log).Perm
      (((first.plain h.internalResult).log ++ (rest.plain _).log ++
        (first.passedOn h.internalResult ++ rest.passedOn _)).map Creation.record)
    rw [first.run_log]
    simp only [List.map_append, List.append_assoc] at hrest ⊢
    exact ((hrest.append_left _).trans (List.perm_append_comm_assoc _ _ _)).append_left _

/-- When no error is passed on, the log is that of the errors created. -/
theorem run_log_of_silent (p : Pipeline T E V F) (h : ErrorHandler T E)
    (hsilent : p.passedOn h.internalResult = []) :
    (p.run h).log = (p.plain h.internalResult).log.map Creation.record := by
  induction p with
  | done => rfl
  | stage first rest ih =>
    obtain ⟨hfirst, hrest⟩ := List.append_eq_nil_iff.mp hsilent
    have hlog := ih (first.run h).val
    rw [first.run_val] at hlog
    show (first.run h).log ++ (rest.run (first.run h).val).log =
      ((first.plain h.internalResult).log ++ (rest.plain _).log).map Creation.record
    rw [first.run_log, hfirst, List.append_nil, hlog hrest, List.map_append]

/-- **One record for each error.** Every pipeline, started from every error handler, ends with
the result that it has over plain results. Its log consists of a record for each error created
and one for each `and_then` and `transform` stage that an error reaches, so it has the records of
the errors created, in order, and no other if and only if no error reaches such a stage. -/
theorem logged_once_iff (p : Pipeline T E V F) (h : ErrorHandler T E) :
    (p.run h).val.internalResult = (p.plain h.internalResult).val ∧
      (p.run h).log.Perm (((p.plain h.internalResult).log ++
        p.passedOn h.internalResult).map Creation.record) ∧
      ((p.run h).log = (p.plain h.internalResult).log.map Creation.record ↔
        p.Quiet h.internalResult) := by
  rw [← passedOn_eq_nil_iff]
  refine ⟨p.run_val h, p.run_log_perm h, fun heq => ?_, p.run_log_of_silent h⟩
  have hlength := (p.run_log_perm h).length_eq
  rw [heq, List.length_map, List.length_map, List.length_append] at hlength
  exact List.length_eq_zero_iff.mp (by omega)

end Pipeline

/-! ## A file that is not there -/

inductive FileError where
  | notFound
  | permissionDenied
  | ioError
  deriving DecidableEq, Repr

def fileError : ErrorEnum where
  Code := FileError
  name
    | .notFound => "File Not Found"
    | .permissionDenied => "Permission Denied"
    | .ioError => "IO Error"

/-- Reading a file that is not there, and the length of what is read. -/
def readLength : Pipeline String fileError Nat fileError :=
  .stage (.andThen ⟨.rvalue, "and_then"⟩ fun _ _ =>
    ⟨.error .notFound, [⟨"read_file", fileError.name .notFound, some "File not found"⟩]⟩) <|
  .stage (.transform ⟨.rvalue, "transform"⟩ fun _ (content : String) => pure content.length) .done

/-- The error is created once and logged twice. -/
theorem not_logged_once_readLength :
    (readLength.plain (.ok "config.txt")).log.length = 1 ∧
      (readLength.run ⟨.ok "config.txt"⟩).log.length = 2 ∧
      ¬ (readLength.run ⟨.ok "config.txt"⟩).log =
        (readLength.plain (.ok "config.txt")).log.map Creation.record := by
  refine ⟨rfl, rfl, fun heq => ?_⟩
  have hlength := congrArg List.length heq
  cases hlength

end EnoceanCore
