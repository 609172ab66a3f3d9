import DeclFront.CommandLine.Run

/-!
# Proofs/CommandLine — a run over many files is the runs over each, one after another

    arguments  --foldlM add-->  options  --findAll-->  entries  --runFiles-->  report

Each arrow either refuses the whole run or has a closed form: the arguments leave three flags and
the files in order (`Options.ofArguments_eq`), the files leave their entries (`findAll_eq`), and the
entries are run one by one as far as they can be read (`runFiles_entries`). `run_eq` puts the three
together; the run over a single file is a case of it, with the same flags. What follows for the
whole run is `IsFilewise` (`run_isFilewise`).
-/

namespace DeclFront.CommandLine

/-! ## The arguments -/

/-- The options there are. -/
def knownOptions : List String := ["--tokens", "--ast", "--no-color"]

/-- The argument starts as an option does and is none. -/
def isUnknown (argument : String) : Bool :=
  Options.isOption argument && !knownOptions.contains argument

/-- The options among the arguments. -/
def givenOptions (arguments : List String) : List String :=
  arguments.filter knownOptions.contains

/-- The files among the arguments. -/
def namedFiles (arguments : List String) : List String :=
  arguments.filter (!Options.isOption ·)

/-- The options given are the arguments that are known options. -/
theorem mem_givenOptions {option : String} {arguments : List String} :
    option ∈ givenOptions arguments ↔ option ∈ arguments ∧ option ∈ knownOptions := by
  simp [givenOptions]

/-- Known options begin like options, so none is taken for a file. -/
theorem isOption_of_mem_knownOptions {option : String} (h : option ∈ knownOptions) :
    Options.isOption option = true := by
  simp only [knownOptions, List.mem_cons, List.not_mem_nil, or_false] at h
  obtain rfl | rfl | rfl := h <;> decide +kernel

theorem isOption_of_mem_namedFiles {file : String} {arguments : List String}
    (h : file ∈ namedFiles arguments) : Options.isOption file = false := by
  simpa [namedFiles] using (List.mem_filter.mp h).2

/-- The options given name no file. -/
theorem namedFiles_givenOptions (arguments : List String) :
    namedFiles (givenOptions arguments) = [] := by
  rw [namedFiles, List.filter_eq_nil_iff]
  intro option hgiven
  simp [isOption_of_mem_knownOptions (mem_givenOptions.mp hgiven).2]

namespace Options

/-- The options after more arguments, none of them unknown. -/
def extend (options : Options) (arguments : List String) : Options where
  listTokens := options.listTokens || arguments.contains "--tokens"
  printTree := options.printTree || arguments.contains "--ast"
  noColour := options.noColour || arguments.contains "--no-color"
  files := options.files ++ namedFiles arguments

theorem extend_nil (options : Options) : options.extend [] = options := by
  simp [extend, namedFiles]

theorem extend_append (options : Options) (first second : List String) :
    (options.extend first).extend second = options.extend (first ++ second) := by
  simp [extend, namedFiles, Bool.or_assoc]

/-- One argument is refused or extends the options. -/
theorem add_eq (options : Options) (argument : String) :
    options.add argument =
      if isUnknown argument then .error (.unknownOption argument)
      else .ok (options.extend [argument]) := by
  by_cases hknown : argument ∈ knownOptions
  · have hoption := isOption_of_mem_knownOptions hknown
    have hunknown : isUnknown argument = false := by simp [isUnknown, hknown]
    simp only [knownOptions, List.mem_cons, List.not_mem_nil, or_false] at hknown
    obtain rfl | rfl | rfl := hknown <;> simp [add, extend, namedFiles, hoption, hunknown]
  · have hunlisted : isUnknown argument = isOption argument := by simp [isUnknown, hknown]
    simp only [knownOptions, List.mem_cons, List.not_mem_nil, or_false, not_or] at hknown
    obtain ⟨htokens, htree, hcolour⟩ := hknown
    rw [hunlisted]
    cases hfile : isOption argument with
    | true => simp [add, htokens, htree, hcolour, hfile]
    | false =>
      simp [add, extend, namedFiles, htokens, htree, hcolour, hfile, Ne.symm htokens,
        Ne.symm htree, Ne.symm hcolour]

/-- The arguments are taken up to the first unknown one. -/
theorem foldlM_add (arguments : List String) (options : Options) :
    arguments.foldlM add options =
      match arguments.find? isUnknown with
      | some argument => .error (.unknownOption argument)
      | none => .ok (options.extend arguments) := by
  induction arguments generalizing options with
  | nil => simp only [List.find?_nil, extend_nil]; rfl
  | cons argument arguments ih =>
    rw [List.foldlM_cons, add_eq, List.find?_cons]
    cases hunknown : isUnknown argument with
    | true => rfl
    | false =>
      calc arguments.foldlM add (options.extend [argument])
          = _ := ih (options.extend [argument])
        _ = _ := by rw [extend_append]; rfl

/-- **The first unknown option is refused**, and then a command line without a file. -/
theorem ofArguments_eq (arguments : List String) :
    ofArguments arguments =
      match arguments.find? isUnknown with
      | some argument => .error (.unknownOption argument)
      | none =>
        if namedFiles arguments = [] then .error .noFile else .ok (empty.extend arguments) := by
  rw [ofArguments, foldlM_add]
  cases arguments.find? isUnknown with
  | some argument => rfl
  | none =>
    have hfiles : (empty.extend arguments).files = namedFiles arguments := rfl
    by_cases hnoFile : namedFiles arguments = []
    · simp [hfiles, hnoFile, bind, Except.bind, throw, throwThe, MonadExceptOf.throw]
    · simp [hfiles, hnoFile, bind, Except.bind, pure, Except.pure]

end Options

/-! ## The files -/

/-- The files with what `find` finds for them. -/
def entries (find : String → Option Entry) (files : List String) : List (String × Entry) :=
  files.filterMap fun file => (find file).map (file, ·)

theorem entries_cons {find : String → Option Entry} {file : String} {entry : Entry}
    (h : find file = some entry) (files : List String) :
    entries find (file :: files) = (file, entry) :: entries find files := by
  simp [entries, h]

/-- The files are found up to the first that is missing. -/
theorem findAll_eq (find : String → Option Entry) (files : List String) :
    findAll find files =
      match files.find? fun file => (find file).isNone with
      | some file => .error (.missing file)
      | none => .ok (entries find files) := by
  induction files with
  | nil => rfl
  | cons file files ih =>
    rw [findAll, List.find?_cons]
    cases hfound : find file with
    | none => rfl
    | some entry =>
      simp only [Option.isNone_some, ih, entries_cons hfound]
      cases files.find? fun file => (find file).isNone <;> rfl

/-- The file is there and holds text. -/
def isReadable (find : String → Option Entry) (file : String) : Bool :=
  match find file with
  | some (.file bytes) => (String.fromUTF8? bytes).isSome
  | _ => false

/-- The files up to the first that cannot be read, and that one. -/
def filesReached (find : String → Option Entry) (files : List String) : List String :=
  files.takeWhile (isReadable find) ++ (files.dropWhile (isReadable find)).take 1

/-- The file holds text, and every declaration in it can be parsed. -/
def Parses (find : String → Option Entry) (file : String) : Prop :=
  ∃ bytes text, find file = some (.file bytes) ∧ String.fromUTF8? bytes = some text ∧
    (TokenStream.ofText file text).parse.isSuccess = true

variable {find : String → Option Entry} {file : String} {files : List String}

theorem isReadable_eq {entry : Entry} (h : find file = some entry) :
    isReadable find file = entry.read.isOk := by
  rw [isReadable, h]
  cases entry with
  | file bytes =>
    simp only [Entry.read]
    cases String.fromUTF8? bytes <;> rfl
  | directory => rfl

/-- A file that parses can be read. -/
theorem Parses.isReadable (h : Parses find file) : isReadable find file = true := by
  obtain ⟨bytes, text, hfound, hdecoded, -⟩ := h
  simp [CommandLine.isReadable, hfound, hdecoded]

/-- The first file that cannot be read is reached, and none behind it. -/
theorem filesReached_cons (find : String → Option Entry) (file : String) (files : List String) :
    filesReached find (file :: files) =
      file :: if isReadable find file then filesReached find files else [] := by
  cases hreadable : isReadable find file <;> simp [filesReached, hreadable]

theorem filesReached_sublist (find : String → Option Entry) (files : List String) :
    (filesReached find files).Sublist files := by
  have hreached : (filesReached find files).Sublist
      (files.takeWhile (isReadable find) ++ files.dropWhile (isReadable find)) :=
    List.Sublist.append_left (List.take_sublist 1 _) _
  rwa [List.takeWhile_append_dropWhile] at hreached

/-- No file is left when every file that is reached can be read. -/
theorem filesReached_eq_self (h : ∀ file ∈ filesReached find files, isReadable find file = true) :
    filesReached find files = files := by
  induction files with
  | nil => rfl
  | cons file files ih =>
    rw [filesReached_cons] at h ⊢
    have hreadable : isReadable find file = true := h file List.mem_cons_self
    rw [if_pos hreadable] at h ⊢
    rw [ih fun other hmem => h other (List.mem_cons_of_mem _ hmem)]

/-- Every file parses as soon as those that are reached do. -/
theorem forall_filesReached_parses_iff :
    (∀ file ∈ filesReached find files, Parses find file) ↔ ∀ file ∈ files, Parses find file := by
  constructor
  · intro hparses
    rwa [filesReached_eq_self fun file hmem => (hparses file hmem).isReadable] at hparses
  · exact fun hparses file hmem => hparses file ((filesReached_sublist find files).subset hmem)

/-! ## The reports -/

namespace Report

/-- Reports one after another. -/
def together (reports : List Report) : Report := reports.foldr followedBy success

theorem followedBy_success (report : Report) : report.followedBy success = report := by
  simp [followedBy, success]

/-- Reports put together print their texts one after the other.  `text` is that on the standard
output or that on the standard error. -/
theorem text_together (text : Report → String) (hsuccess : text success = "")
    (hfollowedBy : ∀ first second, text (first.followedBy second) = text first ++ text second)
    (reports : List Report) : text (together reports) = String.join (reports.map text) := by
  induction reports with
  | nil => exact hsuccess
  | cons report reports ih => rw [List.map_cons, String.join_cons, ← ih]; exact hfollowedBy _ _

/-- Reports put together have the highest of their exit codes. -/
theorem code_together_le_iff (reports : List Report) (n : Nat) :
    (together reports).code ≤ n ↔ ∀ report ∈ reports, report.code ≤ n := by
  induction reports with
  | nil => simp [together, success]
  | cons report reports ih => rw [List.forall_mem_cons, ← ih]; exact Nat.max_le

end Report

/-! ## Running over the files -/

/-- Of the options, only those for the standard output matter to a run over files. -/
theorem runFiles_congr {options options' : Options}
    (htokens : options.listTokens = options'.listTokens)
    (htree : options.printTree = options'.printTree) (coloured : Bool)
    (files : List (String × Entry)) :
    runFiles options coloured files = runFiles options' coloured files := by
  induction files with
  | nil => rfl
  | cons file files ih => simp only [runFiles, runText, htokens, htree, ih]

/-- **The run over files is the runs over each that is reached, one after another.** -/
theorem runFiles_entries (options : Options) (coloured : Bool)
    (hfound : ∀ file ∈ files, (find file).isSome = true) :
    runFiles options coloured (entries find files) =
      .together ((filesReached find files).map fun file =>
        runFiles options coloured (entries find [file])) := by
  induction files with
  | nil => rfl
  | cons file files ih =>
    obtain ⟨hhere, hbehind⟩ := List.forall_mem_cons.mp hfound
    obtain ⟨entry, hfound⟩ := Option.isSome_iff_exists.mp hhere
    have halone : runFiles options coloured (entries find [file]) =
        runFiles options coloured [(file, entry)] := by rw [entries_cons hfound]; rfl
    rw [filesReached_cons, List.map_cons, halone, entries_cons hfound, isReadable_eq hfound]
    cases hread : entry.read with
    | error fault =>
      -- Neither side goes beyond an unreadable file, so there is nothing to say of `files`.
      simp [runFiles, hread, Except.isOk, Except.toBool, Report.together,
        Report.followedBy_success]
    | ok text =>
      simp only [runFiles, hread, Except.isOk, Except.toBool, if_true, ih hbehind,
        Report.followedBy_success]
      rfl

/-- There is one exit code for whatever goes wrong with a file. -/
theorem code_runFiles_le (options : Options) (coloured : Bool) (files : List (String × Entry)) :
    (runFiles options coloured files).code ≤ 1 := by
  induction files with
  | nil => exact Nat.zero_le 1
  | cons file files ih =>
    rw [runFiles]
    cases file.2.read with
    | error fault => exact Nat.le_refl 1
    | ok text =>
      have hhere : (runText options coloured file.1 text).code ≤ 1 := by
        rw [runText]
        split <;> simp
      exact Nat.max_le.mpr ⟨hhere, ih⟩

/-- A file alone is run with success exactly when it parses. -/
theorem code_runFiles_entries_singleton (options : Options) (coloured : Bool)
    (hfound : (find file).isSome = true) :
    (runFiles options coloured (entries find [file])).code = 0 ↔ Parses find file := by
  obtain ⟨entry, hfound⟩ := Option.isSome_iff_exists.mp hfound
  rw [entries_cons hfound, entries, List.filterMap_nil]
  cases entry with
  | directory => simp [runFiles, Entry.read, Parses, hfound]
  | file bytes =>
    cases hdecoded : String.fromUTF8? bytes with
    | none => simp [runFiles, Entry.read, Parses, hfound, hdecoded]
    | some text =>
      simp [runFiles, Entry.read, Parses, hfound, hdecoded, Report.followedBy_success, runText]

/-- The run over files that are found, with the options among the arguments. -/
def runWith (terminal : Bool) (arguments : List String) (files : List (String × Entry)) : Report :=
  runFiles (Options.empty.extend arguments) (terminal && !arguments.contains "--no-color") files

/-- Only the known options among the arguments matter to a run. -/
theorem runWith_congr {arguments arguments' : List String}
    (hsame : ∀ option ∈ knownOptions, option ∈ arguments' ↔ option ∈ arguments) (terminal : Bool)
    (files : List (String × Entry)) :
    runWith terminal arguments' files = runWith terminal arguments files := by
  have hflag : ∀ option ∈ knownOptions, arguments'.contains option = arguments.contains option := by
    intro option hknown
    rw [Bool.eq_iff_iff, List.contains_iff_mem, List.contains_iff_mem, hsame option hknown]
  rw [runWith, runWith, hflag "--no-color" (by simp [knownOptions])]
  apply runFiles_congr
  · simp only [Options.extend, hflag "--tokens" (by simp [knownOptions])]
  · simp only [Options.extend, hflag "--ast" (by simp [knownOptions])]

/-! ## The whole run -/

/-- Why a run over the arguments does not start: an unknown option, then the lack of a file, then
a missing file, each time the first. -/
def refusal (find : String → Option Entry) (arguments : List String) : Option UsageFault :=
  match arguments.find? isUnknown with
  | some argument => some (.unknownOption argument)
  | none =>
    if namedFiles arguments = [] then some .noFile
    else ((namedFiles arguments).find? fun file => (find file).isNone).map .missing

/-- An option is unknown, no file is named, or a named file is missing. -/
def Refused (find : String → Option Entry) (arguments : List String) : Prop :=
  (∃ argument ∈ arguments, isUnknown argument = true) ∨ namedFiles arguments = [] ∨
    ∃ file ∈ namedFiles arguments, find file = none

/-- A run is refused for the arguments alone, or for a file that is missing. -/
theorem isSome_refusal_iff (find : String → Option Entry) (arguments : List String) :
    (refusal find arguments).isSome = true ↔ Refused find arguments := by
  rw [refusal, Refused, ← List.find?_isSome]
  cases arguments.find? isUnknown with
  | some argument => simp
  | none => by_cases hnoFile : namedFiles arguments = [] <;> simp [hnoFile]

instance (find : String → Option Entry) (arguments : List String) :
    Decidable (Refused find arguments) :=
  decidable_of_iff _ (isSome_refusal_iff find arguments)

/-- What refuses a run is which files there are, not what they hold. -/
theorem refusal_congr {find' : String → Option Entry}
    (hsame : ∀ file, (find' file).isSome = (find file).isSome) (arguments : List String) :
    refusal find' arguments = refusal find arguments := by
  have hmissing : (fun file => (find' file).isNone) = fun file => (find file).isNone := by
    funext file
    rw [← Option.not_isSome, ← Option.not_isSome, hsame]
  rw [refusal, refusal, hmissing]

/-- **A run is refused before any file is read**, or goes through the files. -/
theorem run_eq (program : String) (terminal : Bool) (find : String → Option Entry)
    (arguments : List String) :
    run program terminal find arguments =
      match refusal find arguments with
      | some fault => fault.report program
      | none => runWith terminal arguments (entries find (namedFiles arguments)) := by
  have hfiles : (Options.empty.extend arguments).files = namedFiles arguments := rfl
  rw [run, Options.ofArguments_eq, refusal]
  cases arguments.find? isUnknown with
  | some argument => rfl
  | none =>
    by_cases hnoFile : namedFiles arguments = []
    · simp [hnoFile]
    · simp only [if_neg hnoFile, hfiles, findAll_eq]
      cases (namedFiles arguments).find? fun file => (find file).isNone with
      | some file => rfl
      | none => rfl

/-- The run over one file alone, with the same options. -/
def runAlone (program : String) (terminal : Bool) (find : String → Option Entry)
    (arguments : List String) (file : String) : Report :=
  run program terminal find (givenOptions arguments ++ [file])

/-- A run over many files, in terms of what the arguments are and of the runs over each file. -/
structure IsFilewise (program : String) (terminal : Bool) (find : String → Option Entry)
    (arguments : List String) : Prop where
  /-- Where the options stand and how often makes no difference, unless one is unknown. -/
  options_anywhere : ∀ arguments' : List String,
    (∀ argument ∈ arguments, isUnknown argument = false) →
    (∀ argument ∈ arguments', isUnknown argument = false) →
    (∀ option ∈ knownOptions, option ∈ arguments' ↔ option ∈ arguments) →
    namedFiles arguments' = namedFiles arguments →
    run program terminal find arguments' = run program terminal find arguments
  /-- A run that is refused fails with nothing but the fault and the usage. -/
  refused : Refused find arguments →
    ∃ fault, refusal find arguments = some fault ∧ run program terminal find arguments =
      ⟨1, "", lines ["Error: " ++ fault.message] ++ usage program⟩
  /-- A run that is refused reads no file: whatever the files hold, it is the same. -/
  refused_unread : Refused find arguments → ∀ find' : String → Option Entry,
    (∀ file, (find' file).isSome = (find file).isSome) →
    run program terminal find' arguments = run program terminal find arguments
  /-- Any other run writes what the runs over each file write, up to the first unreadable one. -/
  stdout_eq : ¬Refused find arguments → (run program terminal find arguments).stdout =
    String.join ((filesReached find (namedFiles arguments)).map fun file =>
      (runAlone program terminal find arguments file).stdout)
  stderr_eq : ¬Refused find arguments → (run program terminal find arguments).stderr =
    String.join ((filesReached find (namedFiles arguments)).map fun file =>
      (runAlone program terminal find arguments file).stderr)
  /-- It succeeds when every file can be read and parsed, and else it fails with 1. -/
  code_eq_zero_iff : ¬Refused find arguments →
    ((run program terminal find arguments).code = 0 ↔
      ∀ file ∈ namedFiles arguments, Parses find file)
  code_le_one : (run program terminal find arguments).code ≤ 1

section Run

variable (program : String) (terminal : Bool) {arguments : List String}

/-- A refused run prints the fault and the usage. -/
theorem run_of_refused (hrefused : Refused find arguments) :
    ∃ fault, refusal find arguments = some fault ∧
      run program terminal find arguments = fault.report program := by
  obtain ⟨fault, hfault⟩ :=
    Option.isSome_iff_exists.mp ((isSome_refusal_iff find arguments).mpr hrefused)
  exact ⟨fault, hfault, by rw [run_eq, hfault]⟩

theorem run_of_not_refused (haccepted : ¬Refused find arguments) :
    run program terminal find arguments =
      runWith terminal arguments (entries find (namedFiles arguments)) := by
  have hnone : refusal find arguments = none := by
    rwa [← isSome_refusal_iff, Option.not_isSome_iff_eq_none] at haccepted
  rw [run_eq, hnone]

/-- When a run is not refused, every file named is there. -/
theorem isSome_of_not_refused (haccepted : ¬Refused find arguments) :
    ∀ file ∈ namedFiles arguments, (find file).isSome = true := by
  intro file hmem
  rw [Option.isSome_iff_ne_none]
  exact fun hmissing => haccepted (.inr (.inr ⟨file, hmem, hmissing⟩))

/-- The run on one file alone names that file. -/
theorem namedFiles_alone (h : file ∈ namedFiles arguments) :
    namedFiles (givenOptions arguments ++ [file]) = [file] := by
  have hfile := isOption_of_mem_namedFiles h
  rw [namedFiles, List.filter_append, ← namedFiles, namedFiles_givenOptions]
  simp [hfile]

/-- A file alone is given with the same options as among the others. -/
theorem mem_alone_iff (h : file ∈ namedFiles arguments) {option : String}
    (hknown : option ∈ knownOptions) :
    option ∈ givenOptions arguments ++ [file] ↔ option ∈ arguments := by
  have hfile := isOption_of_mem_namedFiles h
  have hne : option ≠ file := by
    rintro rfl
    simp [isOption_of_mem_knownOptions hknown] at hfile
  simp [mem_givenOptions, hknown, hne]

/-- What is not refused together is not refused alone. -/
theorem not_refused_alone (haccepted : ¬Refused find arguments)
    (hmem : file ∈ namedFiles arguments) : ¬Refused find (givenOptions arguments ++ [file]) := by
  rintro (⟨argument, halone, hunknown⟩ | hnoFile | ⟨missing, halone, hmissing⟩)
  · rcases List.mem_append.mp halone with hgiven | halone
    · simp [isUnknown, (mem_givenOptions.mp hgiven).2] at hunknown
    · obtain rfl := List.mem_singleton.mp halone
      simp [isUnknown, isOption_of_mem_namedFiles hmem] at hunknown
  · simp [namedFiles_alone hmem] at hnoFile
  · rw [namedFiles_alone hmem] at halone
    obtain rfl := List.mem_singleton.mp halone
    exact haccepted (.inr (.inr ⟨missing, hmem, hmissing⟩))

/-- The run on one file alone has the same options. -/
theorem runAlone_eq (haccepted : ¬Refused find arguments) (hmem : file ∈ namedFiles arguments) :
    runAlone program terminal find arguments file =
      runWith terminal arguments (entries find [file]) := by
  rw [runAlone, run_of_not_refused program terminal (not_refused_alone haccepted hmem),
    namedFiles_alone hmem]
  exact runWith_congr (fun option hknown => mem_alone_iff hmem hknown) terminal _

/-- A run over many files is the runs over each file that is reached, one after another. -/
theorem run_eq_together (haccepted : ¬Refused find arguments) :
    run program terminal find arguments =
      .together ((filesReached find (namedFiles arguments)).map
        (runAlone program terminal find arguments)) := by
  rw [run_of_not_refused program terminal haccepted, runWith,
    runFiles_entries _ _ (isSome_of_not_refused haccepted)]
  congr 1
  apply List.map_congr_left
  intro file hreached
  exact (runAlone_eq program terminal haccepted
    ((filesReached_sublist find (namedFiles arguments)).subset hreached)).symm

/-- A run on one file alone succeeds just where it parses. -/
theorem code_runAlone_eq_zero_iff (haccepted : ¬Refused find arguments)
    (hmem : file ∈ namedFiles arguments) :
    (runAlone program terminal find arguments file).code = 0 ↔ Parses find file := by
  rw [runAlone_eq program terminal haccepted hmem]
  exact code_runFiles_entries_singleton _ _ (isSome_of_not_refused haccepted file hmem)

end Run

/-- **A run over many files is filewise.** The argument has three inputs: the run in terms of what
refuses it (`run_eq`), the files that are reached (`run_eq_together`) and the code of a file alone
(`code_runAlone_eq_zero_iff`). -/
theorem run_isFilewise (program : String) (terminal : Bool) (find : String → Option Entry)
    (arguments : List String) : IsFilewise program terminal find arguments where
  options_anywhere := by
    intro arguments' hknown hknown' hsame hfiles
    have hall : arguments.find? isUnknown = none := by simpa using hknown
    have hall' : arguments'.find? isUnknown = none := by simpa using hknown'
    rw [run_eq, run_eq, refusal, refusal, hall, hall', hfiles]
    simp only [runWith_congr hsame]
  refused := run_of_refused program terminal
  refused_unread := by
    intro hrefused find' hsame
    obtain ⟨fault, hrefusal, hreport⟩ := run_of_refused program terminal hrefused
    rw [hreport, run_eq, refusal_congr hsame, hrefusal]
  stdout_eq := by
    intro haccepted
    rw [run_eq_together program terminal haccepted,
      Report.text_together Report.stdout rfl fun _ _ => rfl, List.map_map]
    rfl
  stderr_eq := by
    intro haccepted
    rw [run_eq_together program terminal haccepted,
      Report.text_together Report.stderr rfl fun _ _ => rfl, List.map_map]
    rfl
  code_eq_zero_iff := by
    intro haccepted
    rw [run_eq_together program terminal haccepted, ← forall_filesReached_parses_iff,
      ← Nat.le_zero, Report.code_together_le_iff, List.forall_mem_map]
    simp only [Nat.le_zero]
    refine forall₂_congr fun file hreached => ?_
    exact code_runAlone_eq_zero_iff program terminal haccepted
      ((filesReached_sublist find (namedFiles arguments)).subset hreached)
  code_le_one := by
    rw [run_eq]
    cases refusal find arguments with
    | some fault => exact Nat.le_refl 1
    | none => exact code_runFiles_le _ _ _

/-- A file that fails and one that parses are both run in front of a directory, and the file behind
the directory is not. -/
theorem run_isFilewise_directoryBetween :
    let find : String → Option Entry := fun file =>
      if file = "folder" then some .directory
      else some (.file (if file = "bad" then "enum" else "import A").toUTF8)
    let arguments := ["bad", "--ast", "good", "folder", "good"]
    let alone := runAlone "quill" false find arguments
    ¬Refused find arguments ∧
      (run "quill" false find arguments).stderr =
        String.join [(alone "bad").stderr, (alone "good").stderr, (alone "folder").stderr] ∧
      (run "quill" false find arguments).code = 1 := by
  intro find arguments alone
  have haccepted : ¬Refused find arguments := by decide +kernel
  have hfilewise := run_isFilewise "quill" false find arguments
  have hreached : filesReached find (namedFiles arguments) = ["bad", "good", "folder"] := by
    decide +kernel
  have hfailing : ¬Parses find "folder" := fun hparses => absurd hparses.isReadable (by decide)
  have hcode : (run "quill" false find arguments).code ≠ 0 := fun hsuccess =>
    hfailing ((hfilewise.code_eq_zero_iff haccepted).mp hsuccess "folder" (by decide +kernel))
  refine ⟨haccepted, ?_, ?_⟩
  · rw [hfilewise.stderr_eq haccepted, hreached]
    rfl
  · have hle := hfilewise.code_le_one
    omega

end DeclFront.CommandLine
