import ItemGuard.Audit.RollingLog
import ItemGuard.Diagnostic

/-!
# Audit sinks

A sink takes the records of denials. It may change files, report something, and fail; a sink that
fails may have changed as well. The sinks here keep the records in memory, discard them, always
fail, or are a logger that shows them and appends them to a rolling log, one JSON object a line.
-/

namespace ItemGuard.Audit

open Storage (Failure Files)

/-- What came of a record that was given to a sink. -/
structure Written (σ : Type) where
  sink : σ
  files : Files
  log : List Diagnostic
  result : Except Failure Unit

/-- A place for records. -/
class Sink (σ : Type) where
  write : σ → Record → Files → Written σ

/-- Keeps the records, the first one first. -/
structure Memory where
  records : List Record

instance : Sink Memory where
  write m r fs := ⟨⟨m.records ++ [r]⟩, fs, [], .ok ()⟩

/-- Drops all records. -/
inductive Discard where
  | discard

instance : Sink Discard where
  write s _ fs := ⟨s, fs, [], .ok ()⟩

/-- Fails on every record. -/
structure Refusal where
  failure : Failure

instance : Sink Refusal where
  write s _ fs := ⟨s, fs, [], .error s.failure⟩

/-- Shows records among the diagnostics and appends them to a file, if it is to do so. -/
structure Logger where
  console : Bool
  file : Option RollingLog

namespace Logger

def disabled : Logger := ⟨false, none⟩

def consoleOnly : Logger := ⟨true, none⟩

/-- The logger that the settings ask for. A file that cannot be opened is reported and not
written. -/
def ofSettings (s : AuditSettings) (env : Environment) (fs : Files) :
    Logger × Files × List Diagnostic :=
  match s.filePath env with
  | none => (⟨s.console, none⟩, fs, [])
  | some path =>
    match RollingLog.create path s.fileLimit s.fileCount fs with
    | (.ok log, fs) => (⟨s.console, some log⟩, fs, [])
    | (.error e, fs) => (⟨s.console, none⟩, fs, [.logUnopened path e])

/-- Shows a record and appends it to the file. -/
def write (l : Logger) (r : Record) (fs : Files) : Written Logger :=
  let shown := if l.console then [.record r] else []
  match l.file with
  | none => ⟨l, fs, shown, .ok ()⟩
  | some log =>
    match log.append r.json fs with
    | (.ok log, fs) => ⟨{ l with file := some log }, fs, shown, .ok ()⟩
    -- The log is kept, and the next record finds it as it was.
    | (.error e, fs) => ⟨l, fs, shown, .error e⟩

end Logger

instance : Sink Logger where
  write := Logger.write

/-- A sink of any of these kinds. -/
inductive AnySink where
  | memory (sink : Memory)
  | discard
  | refusal (sink : Refusal)
  | logger (sink : Logger)

/-- What came of a record, with the sink seen in another way. -/
def Written.map {σ τ : Type} (w : Written σ) (f : σ → τ) : Written τ :=
  ⟨f w.sink, w.files, w.log, w.result⟩

instance : Sink AnySink where
  write
    | .memory m, r, fs => (Sink.write m r fs).map .memory
    | .discard, r, fs => (Sink.write Discard.discard r fs).map fun _ => .discard
    | .refusal s, r, fs => (Sink.write s r fs).map .refusal
    | .logger l, r, fs => (Sink.write l r fs).map .logger

end ItemGuard.Audit
