import JobQueue.Log

/-!
Which log entries are shown. A filter is a text of directives between commas: a level alone sets
the level of everything, a source alone shows all of it, and `source=level` sets the level of the
sources whose path begins so. The longest path wins; what no directive names is not shown.
-/

namespace JobQueue.Log

/-- What is said of the sources whose path begins with a text: the greatest rank that is shown. -/
structure Directive where
  path : List Char
  rank : Nat
  deriving DecidableEq, Repr

/-- Directives, later ones of one path in force. -/
abbrev Filter := List Directive

def rank? (word : String) : Option Nat :=
  match word.toLower with
  | "off" | "0" => some 0
  | "error" | "1" => some Level.error.rank
  | "warn" | "2" => some Level.warn.rank
  | "info" | "3" => some Level.info.rank
  | "debug" | "4" => some Level.debug.rank
  | "trace" | "5" => some Level.trace.rank
  | _ => none

def isPathChar (c : Char) : Bool :=
  c.isAlphanum || c = '_' || c = ':' || c = '-'

def Directive.ofText? (text : String) : Option Directive :=
  match rank? text with
  | some rank => some ⟨[], rank⟩
  | none =>
    let path := text.toList.takeWhile isPathChar
    if path.isEmpty then none
    else
      match text.toList.dropWhile isPathChar with
      | [] | ['='] => some ⟨path, Level.trace.rank⟩
      | '=' :: level => (rank? (String.ofList level)).map fun rank => ⟨path, rank⟩
      | _ => none

namespace Filter

/-- The filter of a text. One without directives shows errors. -/
def ofText? (text : String) : Option Filter := do
  let directives ← ((text.splitOn ",").filter (· ≠ "")).mapM Directive.ofText?
  -- what no directive speaks of is not shown, so an empty filter would show nothing at all
  return if directives.isEmpty then [⟨[], Level.error.rank⟩] else directives

def default : Filter := [⟨[], Level.info.rank⟩]

def better (path : List Char) (found : Option Directive) (d : Directive) : Option Directive :=
  if d.path.isPrefixOf path then
    match found with
    | some f => if f.path.length ≤ d.path.length then some d else found
    | none => some d
  else found

def shows (f : Filter) (source : Source) (level : Level) : Bool :=
  match f.foldl (better source.path.toList) none with
  | some d => level.rank ≤ d.rank
  | none => false

def spanText (c : Context) : String :=
  let facts :=
    [s!"job_id={c.jobId}", s!"job_type={c.jobType}", s!"worker_id={c.workerId}",
      s!"attempt={c.attempt.toNat}"]
  "job\x7b" ++ " ".intercalate facts ++ "\x7d: "

def line? (f : Filter) (e : Entry) : Option String :=
  if f.shows e.source e.level then
    let span :=
      match e.span with
      | some c => if f.shows .context .info then spanText c else ""
      | none => ""
    let fields :=
      String.join ((e.fields ++ e.times).map fun (key, value) => s!" {key}={value}")
    some s!"{e.level.name} {span}{e.source.path}: {e.message}{fields}"
  else none

end Filter

end JobQueue.Log
