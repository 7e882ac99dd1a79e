import Mathlib.Data.List.Basic
import Mathlib.Logic.Function.Basic
import Rebrace.CommandLine.Directory

/-!
# A run does all of its work or none

A run of the program reads its arguments, reads a source, converts it and writes the result, and any
of these stages can end it.  `run_completed_or_unchanged` says what can be seen from outside.  A run
that ends with an exit code other than zero has printed nothing to the standard output and changed
no file.  A run that ends with zero, and was not asked for the version or the help text, has gone
through all stages: `Completed` lists what is known of each of them.

Nothing is assumed of the reader of arguments.  Of the system it is assumed that it has files, each
path the name of one of them, and that its actions can be trusted: what is read is what is there,
and a write either stores all bytes or leaves all files as they are (`System.Lawful`).
-/

namespace Rebrace.CommandLine

open Text

/-- Bytes that can be decoded are the UTF-8 form of the text that comes out. -/
lemma eq_encode_of_decode {bytes : ByteArray} {t : Text} (h : decode bytes = .ok t) :
    bytes = encode t := by
  unfold decode String.fromUTF8? at h
  split at h
  · rename_i s hs
    split at hs
    · cases hs
      cases h
      simp [encode, String.fromUTF8]
    · cases hs
  · cases h

/-! ### Systems that can be trusted -/

section Lawful

variable {σ κ : Type}

/-- The bytes of an origin, where `files` are the files and `fileOf` tells which of them a path
names. -/
def bytesOf (stdin : ByteArray) (files : κ → Option ByteArray) (fileOf : Text → κ) :
    Origin → Option ByteArray
  | .stdin => some stdin
  | .file path => files (fileOf path)

/-- An origin is the standard input without an input path or with a lone hyphen, and otherwise the
file of the input path. -/
lemma stdin_or_file_of_bytesOf_origin {stdin : ByteArray} {files : κ → Option ByteArray} {fileOf : Text → κ}
    {bytes : ByteArray} {o : Options} (h : bytesOf stdin files fileOf o.origin = some bytes) :
    (o.input? = none ∨ o.input? = some "-".toList → stdin = bytes) ∧
      ∀ path, o.input? = some path → path ≠ "-" → files (fileOf path) = some bytes := by
  unfold Options.origin at h
  refine ⟨?_, fun path hinput hpath => ?_⟩
  · rintro (hinput | hinput)
    · rw [hinput] at h
      exact Option.some.inj h
    · rw [hinput] at h
      exact Option.some.inj h
  · rw [hinput] at h
    simp only [if_neg hpath] at h
    exact h

variable [DecidableEq κ]

/-- What is assumed of a system with states `σ`.  In each state there are a standard input and
files, and every path names one of the files. -/
structure System.Lawful (s : System (StateM σ)) (stdin : σ → ByteArray)
    (files : σ → κ → Option ByteArray) (fileOf : Text → κ) : Prop where
  /-- What is read from an origin are its bytes. -/
  read_ok : ∀ {origin : Origin} {w after : σ} {bytes : ByteArray},
    (s.read origin).run w = (.ok bytes, after) →
      bytesOf (stdin w) (files w) fileOf origin = some bytes
  /-- Reading leaves all files as they are. -/
  read_files : ∀ {origin : Origin} {w after : σ} {outcome : Except FileError ByteArray},
    (s.read origin).run w = (outcome, after) → files after = files w
  /-- A write that fails leaves all files as they are. -/
  write_error : ∀ {path : Text} {bytes : ByteArray} {w after : σ} {e : FileError},
    (s.write path bytes).run w = (.error e, after) → files after = files w
  /-- A write that succeeds stores all bytes, and leaves the other files as they are. -/
  write_ok : ∀ {path : Text} {bytes : ByteArray} {w after : σ},
    (s.write path bytes).run w = (.ok (), after) →
      files after = Function.update (files w) (fileOf path) (some bytes)

/-- What is known of a run that has done its work with the accepted arguments `o`: it has converted
`source` to `text`, where `before` were the files and `after` are. -/
structure Completed (arguments : Except Stop Options) (stdin : ByteArray)
    (before after : κ → Option ByteArray) (fileOf : Text → κ) (stdout : Text) (o : Options)
    (source text : Text) : Prop where
  /-- The arguments are accepted. -/
  accepted : arguments = .ok o
  /-- A level of indentation of the source is not empty. -/
  source_pos : 1 ≤ o.widths.source
  /-- A level of indentation of the target is not empty. -/
  target_pos : 1 ≤ o.widths.target
  /-- Without an input path, or with a lone hyphen, the standard input is the source in UTF-8. -/
  fromStdin : o.input? = none ∨ o.input? = some "-".toList → stdin = encode source
  /-- With any other input path, its file holds the source in UTF-8. -/
  fromFile : ∀ path, o.input? = some path → path ≠ "-" → before (fileOf path) = some (encode source)
  /-- The source is converted. -/
  converted : convert o.widths source = .ok text
  /-- Without an output path, the text is printed and no file is changed. -/
  printed : o.output? = none → stdout = text ∧ after = before
  /-- With an output path, nothing is printed, its file holds the text in UTF-8, and no other file
  is changed. -/
  stored : ∀ path, o.output? = some path →
    stdout = [] ∧ after = Function.update before (fileOf path) (some (encode text))

/-! ### The stages of a run -/

variable {readArguments : List Text → Except Stop Options} {args : List Text} {o : Options}

/-- A run that starts has arguments with widths that are not zero. -/
lemma accepted_of_start (h : start readArguments args = .ok o) :
    readArguments args = .ok o ∧ 1 ≤ o.widths.source ∧ 1 ≤ o.widths.target := by
  unfold start at h
  split at h
  · cases h
  · rename_i options hread
    split at h
    · cases h
    · rename_i hvalid
      cases h
      refine ⟨hread, ?_⟩
      unfold Widths.validate at hvalid
      split at hvalid
      · cases hvalid
      · split at hvalid
        · cases hvalid
        · omega

/-- A run that does not start ends with a failure, unless the version or the help text is asked
for. -/
lemma exit_of_start {report : Report} (h : start readArguments args = .error report) :
    (report.exit ≠ 0 ∧ report.stdout = []) ∨
      report.exit = 0 ∧
        (readArguments args = .error .version ∨ readArguments args = .error .help) := by
  unfold start at h
  split at h
  · rename_i stop hread
    cases h
    cases stop with
    | failed e => exact Or.inl ⟨Nat.succ_ne_zero _, rfl⟩
    | version => exact Or.inr ⟨rfl, Or.inl hread⟩
    | help => exact Or.inr ⟨rfl, Or.inr hread⟩
  · split at h
    · cases h
      exact Or.inl ⟨Nat.succ_ne_zero _, rfl⟩
    · cases h

/-- A conversion gives the converted text, or ends the run with a failure. -/
lemma convertSource_cases (o : Options) (source : Text) :
    (∃ report, o.convertSource source = .error report ∧ report.exit ≠ 0 ∧ report.stdout = []) ∨
      ∃ text told, o.convertSource source = .ok (text, told) ∧
        convert o.widths source = .ok text := by
  unfold Options.convertSource convert
  cases hresult : (Conversion.run o.widths source).result with
  | error e =>
    simp only [hresult]
    exact Or.inl ⟨_, rfl, Nat.succ_ne_zero _, rfl⟩
  | ok text =>
    simp only [hresult]
    exact Or.inr ⟨text, _, rfl, rfl⟩

namespace System

variable {s : System (StateM σ)} {stdin : σ → ByteArray} {files : σ → κ → Option ByteArray}
  {fileOf : Text → κ}

/-- A source is read without a change of files, and it is what its origin holds. -/
lemma Lawful.of_readSource (hs : s.Lawful stdin files fileOf) {origin : Origin} {w after : σ}
    {outcome : Except FileError Text} (h : (s.readSource origin).run w = (outcome, after)) :
    files after = files w ∧ ∀ source, outcome = .ok source →
      bytesOf (stdin w) (files w) fileOf origin = some (encode source) := by
  rcases hread : (s.read origin).run w with ⟨bytes, reached⟩
  have hrun : (s.readSource origin).run w = (bytes.bind decode, reached) := by
    simp only [readSource, StateT.run_bind, hread]
    rfl
  obtain ⟨rfl, rfl⟩ := Prod.mk.inj (hrun.symm.trans h)
  refine ⟨hs.read_files hread, fun source hsource => ?_⟩
  rcases bytes with e | bytes
  · cases hsource
  · rw [← eq_encode_of_decode hsource]
    exact hs.read_ok hread

/-- A text is printed or stored, or the run ends with a failure that has changed no file. -/
lemma Lawful.of_deliver (hs : s.Lawful stdin files fileOf) {text told : Text} {w after : σ}
    {report : Report} (h : (s.deliver o text told).run w = (report, after)) :
    (report.exit ≠ 0 ∧ report.stdout = [] ∧ files after = files w) ∨
      report.exit = 0 ∧ (o.output? = none → report.stdout = text ∧ files after = files w) ∧
        ∀ path, o.output? = some path → report.stdout = [] ∧
          files after = Function.update (files w) (fileOf path) (some (encode text)) := by
  cases houtput : o.output? with
  | none =>
    simp only [deliver, houtput] at h
    cases h
    exact Or.inr ⟨rfl, fun _ => ⟨rfl, rfl⟩, by simp⟩
  | some path =>
    rcases hwrite : (s.write path (encode text)).run w with ⟨outcome, reached⟩
    simp only [deliver, houtput, StateT.run_bind, hwrite] at h
    rcases outcome with e | ⟨⟩
    · cases h
      exact Or.inl ⟨Nat.succ_ne_zero _, rfl, hs.write_error hwrite⟩
    · cases h
      refine Or.inr ⟨rfl, by simp, ?_⟩
      rintro _ ⟨⟩
      exact ⟨rfl, hs.write_ok hwrite⟩

/-- A run whose source is read goes on with the conversion and the delivery of the text. -/
lemma run_of_readSource {w reached : σ} {source : Text} (hstart : start readArguments args = .ok o)
    (hread : (s.readSource o.origin).run w = (.ok source, reached)) :
    (s.run readArguments args).run w =
      match o.convertSource source with
      | .error report => (report, reached)
      | .ok (text, told) => (s.deliver o text told).run reached := by
  simp only [run, hstart, StateT.run_bind, hread]
  change StateT.run (match o.convertSource source with
    | .error report => pure report
    | .ok (text, told) => s.deliver o text told) reached = _
  cases o.convertSource source <;> rfl

/-- A run ends with a failure and no effect, or with the version or the help text, or has done its
work. -/
lemma Lawful.run_cases (hs : s.Lawful stdin files fileOf) {w after : σ} {report : Report}
    (h : (s.run readArguments args).run w = (report, after)) :
    (report.exit ≠ 0 ∧ report.stdout = [] ∧ files after = files w) ∨
      (report.exit = 0 ∧
        (readArguments args = .error .version ∨ readArguments args = .error .help)) ∨
      report.exit = 0 ∧ ∃ o source text,
        Completed (readArguments args) (stdin w) (files w) (files after) fileOf report.stdout o
          source text := by
  cases hstart : start readArguments args with
  | error stopped =>
    simp only [run, hstart] at h
    cases h
    rcases exit_of_start hstart with ⟨hexit, hstdout⟩ | hasked
    · exact Or.inl ⟨hexit, hstdout, rfl⟩
    · exact Or.inr (Or.inl hasked)
  | ok o =>
    rcases hread : (s.readSource o.origin).run w with ⟨outcome, reached⟩
    obtain ⟨hfiles, hsource⟩ := hs.of_readSource hread
    rcases outcome with e | source
    · simp only [run, hstart, StateT.run_bind, hread] at h
      cases h
      exact Or.inl ⟨Nat.succ_ne_zero _, rfl, hfiles⟩
    · rw [run_of_readSource hstart hread] at h
      rcases convertSource_cases o source with ⟨failed, hfailed, hexit, hstdout⟩ |
        ⟨text, told, htext, hconvert⟩
      · rw [hfailed] at h
        cases h
        exact Or.inl ⟨hexit, hstdout, hfiles⟩
      · rw [htext] at h
        rw [← hfiles]
        rcases hs.of_deliver h with hfailed | ⟨hexit, hprinted, hstored⟩
        · exact Or.inl hfailed
        · obtain ⟨haccepted, hsourcePos, htargetPos⟩ := accepted_of_start hstart
          obtain ⟨hstdin, hfile⟩ := stdin_or_file_of_bytesOf_origin (hsource source rfl)
          rw [← hfiles] at hfile
          exact Or.inr (Or.inr ⟨hexit, o, source, text, haccepted, hsourcePos, htargetPos, hstdin,
            hfile, hconvert, hprinted, hstored⟩)

end System

end Lawful

/-! ### Directories -/

namespace Directory

lemma file?_cons (key : Text) (value : ByteArray) (d : Directory) (name : Text) :
    file? ((key, value) :: d) name = if name = key then some value else d.file? name := by
  by_cases hname : name = key
  · simp [file?, hname]
  · simp [file?, hname, List.lookup_cons, beq_eq_false_iff_ne.2 hname]

/-- A file that is written holds the new bytes, and all other files hold what they held. -/
lemma file?_insert (name : Text) (bytes : ByteArray) (d : Directory) :
    (d.insert name bytes).file? = Function.update d.file? name (some bytes) := by
  funext file
  rw [Function.update_apply]
  induction d with
  | nil => rw [insert, file?_cons]
  | cons entry d ih =>
    obtain ⟨key, value⟩ := entry
    rw [insert, file?_cons]
    by_cases hkey : key = name
    · rw [if_pos hkey, file?_cons, hkey]
      by_cases hfile : file = name
      · simp only [if_pos hfile]
      · simp only [if_neg hfile]
    · rw [if_neg hkey, file?_cons, ih]
      by_cases hfile : file = name
      · simp only [hfile, if_pos, if_neg (Ne.symm hkey)]
      · simp only [if_neg hfile]

/-- The standard input and the files of a directory are what they are taken for. -/
lemma lawful_system (stdin : ByteArray) :
    (system stdin).Lawful (fun _ => stdin) file? id where
  read_ok := by
    rintro (_ | path) d after bytes h
    · cases h
      rfl
    · obtain ⟨hlookup, -⟩ := Prod.mk.inj h
      cases hfile : d.file? path with
      | none =>
        rw [hfile] at hlookup
        cases hlookup
      | some found =>
        rw [hfile] at hlookup
        cases hlookup
        exact hfile
  read_files := by
    rintro (_ | path) d after outcome h
    · cases h
      rfl
    · cases h
      rfl
  write_error := by
    rintro path bytes d after e h
    cases h
  write_ok := by
    rintro path bytes d after h
    cases h
    exact file?_insert path bytes d

end Directory

end Rebrace.CommandLine
