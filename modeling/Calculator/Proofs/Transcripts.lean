/-
# What a command line leaves behind

A run of the command ends at the first stage that fails, or with the value. Here it is
said from the outside which arguments ask for what (`Names`), and what the stages have
written by then (`Reports`, `Answers`), with times that the clock can give. The command
is one program for every system, so this is proved of all its results in whatever monad
the system works in (`Results.run_answers`), and then read off for any set of files, with
a constant time or with a clock that changes as it is read.

Key definitions: `IsFileName`, `Names`, `Reports`, `Answers`, `Succeeds`, `Results`.
Key theorems: `decode_eq_ok_iff`, `Results.calculate_reports`, `Results.run_answers`,
`Answers.status_eq_zero_iff`, `run_reports_first_failure`.
-/
import Calculator.Command.Run

namespace Calculator.Command

open Text

/-! ### The arguments -/

/-- The name is the text after the last slash of the path. -/
def IsFileName (path name : String) : Prop :=
  '/' ∉ name.toList ∧ (path = name ∨ ∃ folder, path = folder ++ "/" ++ name)

/-- Whether `--tokens` stands in front of the arguments. -/
def listsTokens (args : List String) : Bool := args.head? == some "--tokens"

/-- The arguments after an optional `--tokens` in front. -/
def afterFlag (args : List String) : List String := if listsTokens args then args.tail else args

/-- The arguments name a source, and the name it goes by: an expression is the source itself, and a
path that of a file which holds it in UTF-8. -/
inductive Names (files : Files) : List String → String → String → Prop
  | expression (source : String) : Names files ["-e", source] source "shell"
  | path {path source file : String} : files path = .ok source.toUTF8 → IsFileName path file →
    Names files [path] source file

/-! ### The stages -/

/-- Lines, each with its newline. -/
def unlines (lines : List String) : String := String.join (lines.map (· ++ "\n"))

/-- The line of a token. -/
def tokenLine (token : Token) : String :=
  match token.kind with
  | .eof => "EOF ()"
  | .integer => "Integer (" ++ token.text ++ ")"
  | .punct => "Punct (" ++ token.text ++ ")"

/-- The lines of a source that has been cut into tokens. -/
def tokensLines (listing : Bool) (tokens : List Token) (time : String) : List String :=
  ("Tokenized in " ++ time) :: if listing then tokens.map tokenLine else []

/-- The line of a parse that has built so many nodes. -/
def parseLine (nodes : Nat) (time : String) : String :=
  "Parsed in " ++ time ++ " (" ++ decimal nodes ++ " nodes)"

/-- What a calculation leaves behind, if `IsTime` tells which times can be read: what the stages have
written up to the first that fails, and the report of its error, or what all have written. By default
a parse has at most 256 groups open at once. -/
inductive Reports (IsTime : String → Prop) (listing : Bool) (source file : String) :
    Transcript → Prop
  | untokenized {error : Error} : tokenize source file = .error error →
    Reports IsTime listing source file ⟨1, "", error.report source⟩
  | unparsed {tokens : List Token} {error : Error} {t₁ t₂ : String} : IsTime t₁ → IsTime t₂ →
    tokenize source file = .ok tokens →
    (parse tokens file 256).result = .error error →
    Reports IsTime listing source file ⟨1,
      unlines (tokensLines listing tokens t₁ ++
        [parseLine (parse tokens file 256).parser.built t₂]),
      error.report source⟩
  | unevaluated {tokens : List Token} {e : Expr} {error : Error} {t₁ t₂ : String} :
    IsTime t₁ → IsTime t₂ → tokenize source file = .ok tokens →
    (parse tokens file 256).result = .ok e → e.evaluate = .error error →
    Reports IsTime listing source file ⟨1,
      unlines (tokensLines listing tokens t₁ ++
        [parseLine (parse tokens file 256).parser.built t₂]) ++
      e.outline ++ unlines [e.infixText],
      error.report source⟩
  | evaluated {tokens : List Token} {e : Expr} {value : Int64} {t₁ t₂ t₃ : String} :
    IsTime t₁ → IsTime t₂ → IsTime t₃ → tokenize source file = .ok tokens →
    (parse tokens file 256).result = .ok e → e.evaluate = .ok value →
    Reports IsTime listing source file ⟨0,
      unlines (tokensLines listing tokens t₁ ++
        [parseLine (parse tokens file 256).parser.built t₂]) ++
      e.outline ++ unlines [e.infixText, "= " ++ decimal value.toInt, "Total time: " ++ t₃],
      ""⟩

/-- What a command line leaves behind over the files, if `IsTime` tells which times can be read. -/
inductive Answers (files : Files) (IsTime : String → Prop) (args : List String) : Transcript → Prop
  | usage : (∀ source, afterFlag args ≠ ["-e", source]) → (∀ path, afterFlag args ≠ [path]) →
    Answers files IsTime args
      ⟨2, "", "Usage: arith [--tokens] <file>\n       arith [--tokens] -e <expression>\n"⟩
  | unreadable {path reason : String} : afterFlag args = [path] → files path = .error reason →
    Answers files IsTime args ⟨1, "", "Failed to read " ++ path ++ ": " ++ reason ++ "\n"⟩
  | notText {path : String} {content : ByteArray} : afterFlag args = [path] →
    files path = .ok content → (∀ source : String, content ≠ source.toUTF8) →
    Answers files IsTime args
      ⟨1, "", "Failed to read " ++ path ++ ": " ++ "stream did not contain valid UTF-8" ++ "\n"⟩
  | calculated {source file : String} {transcript : Transcript} :
    Names files (afterFlag args) source file →
    Reports IsTime (listsTokens args) source file transcript →
    Answers files IsTime args transcript

/-- All the stages succeed for a source. -/
def Calculates (source file : String) : Prop :=
  ∃ tokens e value, tokenize source file = .ok tokens ∧
    (parse tokens file 256).result = .ok e ∧ e.evaluate = .ok value

/-- The arguments name a source for which all the stages succeed. -/
def Succeeds (files : Files) (args : List String) : Prop :=
  ∃ source file, Names files (afterFlag args) source file ∧ Calculates source file

/-! ### The arguments, read -/

theorem toList_fileName (path : String) :
    (fileName path).toList = (path.toList.reverse.takeWhile (· ≠ '/')).reverse :=
  String.toList_ofList

/-- The name that a file goes by is the text after the last slash of its path. -/
theorem fileName_isFileName (path : String) : IsFileName path (fileName path) := by
  have hsplit : path.toList = (path.toList.reverse.dropWhile (· ≠ '/')).reverse ++
      (fileName path).toList := by
    rw [toList_fileName, ← List.reverse_append, List.takeWhile_append_dropWhile,
      List.reverse_reverse]
  refine ⟨fun hmem => ?_, ?_⟩
  · rw [toList_fileName, List.mem_reverse] at hmem
    simpa using List.all_eq_true.1 List.all_takeWhile _ hmem
  · cases hdrop : path.toList.reverse.dropWhile (· ≠ '/') with
    | nil =>
      rw [hdrop, List.reverse_nil, List.nil_append] at hsplit
      exact .inl (String.toList_inj.1 hsplit)
    | cons c rest =>
      have hslash : c = '/' := by
        have hnot := List.head?_dropWhile_not (· ≠ '/') path.toList.reverse
        rw [hdrop] at hnot
        simpa using hnot
      rw [hdrop, hslash] at hsplit
      exact .inr ⟨String.ofList rest.reverse, String.toList_inj.1 (hsplit.trans (by simp))⟩

theorem IsFileName.eq_fileName {path name : String} (h : IsFileName path name) :
    name = fileName path := by
  obtain ⟨hname, hpath⟩ := h
  have hall : ∀ c ∈ name.toList.reverse, decide (c ≠ '/') = true := fun c hc =>
    decide_eq_true fun heq => hname (heq ▸ List.mem_reverse.1 hc)
  obtain ⟨rest, hreverse, hrest⟩ : ∃ rest, path.toList.reverse = name.toList.reverse ++ rest ∧
      rest.takeWhile (· ≠ '/') = [] := by
    obtain rfl | ⟨folder, rfl⟩ := hpath
    · exact ⟨[], by rw [List.append_nil], rfl⟩
    · exact ⟨'/' :: folder.toList.reverse, by simp, by simp⟩
  rw [fileName, hreverse, List.takeWhile_append_of_pos hall, hrest, List.append_nil,
    List.reverse_reverse, String.ofList_toList]

/-- A content is read as a text just when it is that text in UTF-8. -/
theorem decode_eq_ok_iff {content : ByteArray} {source : String} :
    decode content = .ok source ↔ content = source.toUTF8 := by
  constructor
  · intro h
    unfold decode String.fromUTF8? at h
    by_cases hvalid : content.IsValidUTF8
    · rw [dif_pos hvalid] at h
      exact Except.ok.inj h ▸ rfl
    · rw [dif_neg hvalid] at h
      cases h
  · rintro rfl
    have hvalid : source.toUTF8.IsValidUTF8 := source.isValidUTF8
    unfold decode String.fromUTF8?
    rw [dif_pos hvalid]
    rfl

/-- Any other content is refused, always in the same words. -/
theorem decode_eq_error {content : ByteArray} (h : ∀ source : String, content ≠ source.toUTF8) :
    decode content = .error "stream did not contain valid UTF-8" := by
  cases htext : decode content with
  | ok source => exact absurd (decode_eq_ok_iff.1 htext) (h source)
  | error reason =>
    unfold decode at htext
    split at htext
    · cases htext
    · exact htext.symm

theorem bind_decode_eq_ok_iff {got : Except String ByteArray} {source : String} :
    got.bind decode = .ok source ↔ got = .ok source.toUTF8 := by
  cases got with
  | error reason => exact iff_of_false nofun nofun
  | ok content => exact decode_eq_ok_iff.trans (by rw [Except.ok.injEq])

theorem Names.unique {files : Files} {rest : List String} {source file source' file' : String}
    (h : Names files rest source file) (h' : Names files rest source' file') :
    source = source' ∧ file = file' := by
  cases h with
  | expression => cases h'; exact ⟨rfl, rfl⟩
  | path hread hfile =>
    cases h' with
    | path hread' hfile' =>
      have hsame : source.toUTF8 = source'.toUTF8 := Except.ok.inj (hread.symm.trans hread')
      exact ⟨String.toByteArray_inj.1 hsame, hfile.eq_fileName.trans hfile'.eq_fileName.symm⟩

theorem ofArgs_eq (args : List String) :
    Invocation.ofArgs args = Invocation.ofRest (listsTokens args) (afterFlag args) := by
  cases args with
  | nil => rfl
  | cons arg rest =>
    by_cases h : arg = "--tokens"
    · simp [Invocation.ofArgs, afterFlag, listsTokens, h]
    · have hflag : listsTokens (arg :: rest) = false := by simp [listsTokens, h]
      rw [afterFlag, hflag]
      exact if_neg h

theorem ofRest_cases (listing : Bool) (rest : List String) :
    (∃ source, rest = ["-e", source] ∧
      Invocation.ofRest listing rest = .calculate listing (.expression source)) ∨
    (∃ path, rest = [path] ∧ Invocation.ofRest listing rest = .calculate listing (.path path)) ∨
    ((∀ source, rest ≠ ["-e", source]) ∧ (∀ path, rest ≠ [path]) ∧
      Invocation.ofRest listing rest = .usage) := by
  match rest with
  | [] => exact .inr (.inr ⟨by simp, by simp, rfl⟩)
  | [path] => exact .inr (.inl ⟨path, rfl, rfl⟩)
  | [flag, source] =>
    by_cases h : flag = "-e"
    · exact .inl ⟨source, by rw [h], if_pos h⟩
    · exact .inr (.inr ⟨by simp [h], by simp, if_neg h⟩)
  | _ :: _ :: _ :: _ => exact .inr (.inr ⟨by simp, by simp, rfl⟩)

/-! ### The status -/

/-- The status of a calculation is 0 just when all its stages succeed. -/
theorem Reports.status_eq_zero_iff {IsTime : String → Prop} {listing : Bool} {source file : String}
    {transcript : Transcript} (h : Reports IsTime listing source file transcript) :
    transcript.status = 0 ↔ Calculates source file := by
  cases h with
  | untokenized htokens => simp [Calculates, htokens]
  | unparsed _ _ htokens hresult => simp [Calculates, htokens, hresult]
  | unevaluated _ _ htokens hresult hvalue => simp [Calculates, htokens, hresult, hvalue]
  | evaluated _ _ _ htokens hresult hvalue => simp [Calculates, htokens, hresult, hvalue]

/-- The status is 0 just when the arguments name a source for which all the stages succeed. -/
theorem Answers.status_eq_zero_iff {files : Files} {IsTime : String → Prop} {args : List String}
    {transcript : Transcript} (h : Answers files IsTime args transcript) :
    transcript.status = 0 ↔ Succeeds files args := by
  cases h with
  | usage hexpression hpath =>
    refine iff_of_false (by simp) ?_
    rintro ⟨source, file, hnames, -⟩
    generalize afterFlag args = rest at hnames hexpression hpath
    cases hnames with
    | expression source => exact hexpression source rfl
    | path => exact hpath _ rfl
  | unreadable hrest hreason =>
    refine iff_of_false (by simp) ?_
    rintro ⟨source, file, hnames, -⟩
    rw [hrest] at hnames
    cases hnames with
    | path hread => exact absurd (hreason.symm.trans hread) nofun
  | notText hrest hcontent hnot =>
    refine iff_of_false (by simp) ?_
    rintro ⟨source, file, hnames, -⟩
    rw [hrest] at hnames
    cases hnames with
    | path hread => exact hnot source (Except.ok.inj (hcontent.symm.trans hread))
  | calculated hnames hreports =>
    rw [hreports.status_eq_zero_iff]
    constructor
    · exact fun hcalculates => ⟨_, _, hnames, hcalculates⟩
    · rintro ⟨source, file, hnames', hcalculates⟩
      obtain ⟨rfl, rfl⟩ := hnames.unique hnames'
      exact hcalculates

/-! ### The texts of the stages -/

theorem unlines_cons (line : String) (lines : List String) :
    unlines (line :: lines) = line ++ "\n" ++ unlines lines := by
  rw [unlines, List.map_cons, String.join_cons]
  rfl

theorem unlines_append (lines more : List String) :
    unlines (lines ++ more) = unlines lines ++ unlines more := by
  rw [unlines, List.map_append, String.join_append]
  rfl

theorem unlines_nil : unlines [] = "" := rfl

theorem listing_eq (token : Token) : token.listing = tokenLine token := by
  unfold Token.listing Token.isOneOf tokenLine
  cases token.kind <;> rfl

theorem tokensText_eq (listing : Bool) (tokens : List Token) (time : String) :
    tokensText listing tokens time = unlines (tokensLines listing tokens time) := by
  refine Eq.trans ?_ (unlines_cons _ _).symm
  refine congrArg ("Tokenized in " ++ time ++ "\n" ++ ·) ?_
  cases listing with
  | false => rfl
  | true => simp [unlines, listing_eq, Function.comp_def]

theorem parseText_eq (out : Outcome) (time : String) :
    parseText out time = unlines [parseLine out.parser.built time] :=
  calc parseText out time
    _ = "Parsed in " ++ time ++ " (" ++ decimal out.parser.built ++ (" nodes)" ++ "\n") := rfl
    _ = parseLine out.parser.built time ++ "\n" := String.append_assoc.symm
    _ = unlines [parseLine out.parser.built time] := by
      rw [unlines_cons, unlines_nil, String.append_empty]

theorem exprText_eq (e : Expr) : exprText e = e.outline ++ unlines [e.infixText] := by
  rw [exprText, unlines_cons, unlines_nil, String.append_empty, String.append_assoc]

theorem valueText_eq (front line value time : String) :
    front ++ unlines [line] ++ "= " ++ value ++ "\nTotal time: " ++ time ++ "\n" =
      front ++ unlines [line, "= " ++ value, "Total time: " ++ time] := by
  have hbreak : "\nTotal time: " = "\n" ++ "Total time: " := rfl
  simp only [unlines_cons, unlines_nil, String.append_empty, String.append_assoc, hbreak]

/-! ### Results, whatever the monad -/

/-- What the computations of a monad can give back: a value that is returned, no other than itself,
and two computations in a row what the second can for something that the first can. -/
structure Results (m : Type → Type) [Monad m] where
  Gives : {α : Type} → m α → α → Prop
  eq_of_pure : ∀ {α : Type} {a b : α}, Gives (pure a : m α) b → b = a
  of_bind : ∀ {α β : Type} {x : m α} {next : α → m β} {b : β}, Gives (x >>= next) b →
    ∃ a, Gives x a ∧ Gives (next a) b

namespace Results

/-- A pure computation gives its value. -/
def ofId : Results Id where
  Gives x a := a = x
  eq_of_pure h := h
  of_bind h := ⟨_, rfl, h⟩

/-- A computation with a state gives what it gives from some state. -/
def ofState (σ : Type) : Results (StateM σ) where
  Gives x a := ∃ s, a = (x s).1
  eq_of_pure := fun ⟨_, h⟩ => h
  of_bind := fun {_ _ x _ _} ⟨s, h⟩ => ⟨(x s).1, ⟨s, rfl⟩, (x s).2, h⟩

variable {m : Type → Type} [Monad m] (results : Results m) {IsTime : String → Prop}

/-- **A calculation leaves behind what its stages have written**, up to the first that fails. -/
theorem calculate_reports {stopwatch : m (m String)} {listing : Bool} {source file : String}
    {transcript : Transcript}
    (hclock : ∀ {clock time}, results.Gives stopwatch clock → results.Gives clock time → IsTime time)
    (h : results.Gives (calculate stopwatch listing source file) transcript) :
    Reports IsTime listing source file transcript := by
  obtain ⟨total, htotal, h⟩ := results.of_bind h
  cases htokens : tokenize source file with
  | error error =>
    simp only [htokens] at h
    rw [results.eq_of_pure h]
    exact .untokenized htokens
  | ok tokens =>
    simp only [htokens] at h
    obtain ⟨t₁, h₁, h⟩ := results.of_bind h
    obtain ⟨lap, hlap, h⟩ := results.of_bind h
    cases hresult : (parse tokens file Parser.defaultLimit).result with
    | error error =>
      simp only [hresult] at h
      obtain ⟨t₂, h₂, h⟩ := results.of_bind h
      rw [results.eq_of_pure h, tokensText_eq, parseText_eq, ← unlines_append]
      exact .unparsed (hclock htotal h₁) (hclock hlap h₂) htokens hresult
    | ok e =>
      simp only [hresult] at h
      obtain ⟨t₂, h₂, h⟩ := results.of_bind h
      rw [tokensText_eq, parseText_eq, ← unlines_append, exprText_eq, ← String.append_assoc] at h
      cases hvalue : e.evaluate with
      | error error =>
        simp only [evaluation, hvalue] at h
        rw [results.eq_of_pure h]
        exact .unevaluated (hclock htotal h₁) (hclock hlap h₂) htokens hresult hvalue
      | ok value =>
        simp only [evaluation, hvalue] at h
        obtain ⟨t₃, h₃, h⟩ := results.of_bind h
        rw [results.eq_of_pure h, valueText_eq]
        exact .evaluated (hclock htotal h₁) (hclock hlap h₂) (hclock htotal h₃) htokens hresult
          hvalue

/-- **A run leaves behind what its arguments ask for.** -/
theorem run_answers {system : System m} {files : Files} {args : List String}
    {transcript : Transcript}
    (hread : ∀ {path got}, results.Gives (system.read path) got → got = files path)
    (hclock : ∀ {clock time}, results.Gives system.stopwatch clock → results.Gives clock time →
      IsTime time)
    (h : results.Gives (run system args) transcript) :
    Answers files IsTime args transcript := by
  rw [run, ofArgs_eq] at h
  obtain ⟨source, hrest, heq⟩ | ⟨path, hrest, heq⟩ | ⟨hexpression, hpath, heq⟩ :=
    ofRest_cases (listsTokens args) (afterFlag args)
  · simp only [heq] at h
    exact .calculated (hrest ▸ .expression source) (results.calculate_reports hclock h)
  · simp only [heq] at h
    obtain ⟨got, hgot, h⟩ := results.of_bind h
    have hgot := hread hgot
    cases hbytes : files path with
    | error reason =>
      simp only [hgot, hbytes, Except.bind] at h
      rw [results.eq_of_pure h]
      exact .unreadable hrest hbytes
    | ok content =>
      simp only [hgot, hbytes, Except.bind] at h
      by_cases htext : ∃ source : String, content = source.toUTF8
      · obtain ⟨source, rfl⟩ := htext
        rw [decode_eq_ok_iff.2 rfl] at h
        exact .calculated (hrest ▸ .path hbytes (fileName_isFileName path))
          (results.calculate_reports hclock h)
      · have hnot := not_exists.1 htext
        rw [decode_eq_error hnot] at h
        rw [results.eq_of_pure h]
        exact .notText hrest hbytes hnot
  · simp only [heq] at h
    rw [results.eq_of_pure h]
    exact .usage hexpression hpath

end Results

section OfFiles

variable (files : Files) (args : List String)

/-- A run over the files with a constant time. -/
theorem answers_constant (time : String) :
    Answers files (· = time) args (run (m := Id) (.ofFiles files (pure (pure time))) args) := by
  have hread : ∀ {path got}, Results.ofId.Gives
      ((System.ofFiles files (pure (pure time))).read path) got → got = files path := id
  apply Results.ofId.run_answers hread _ rfl
  rintro clock t rfl htime
  exact htime

/-- A run over the files with a clock that changes a state as it is read. -/
theorem answers_clock {σ : Type} (clock : StateM σ (StateM σ String)) (s : σ) :
    Answers files (fun time => ∃ s s', time = ((clock s).1 s').1) args
      (run (.ofFiles files clock) args s).1 := by
  have hread : ∀ {path got}, (Results.ofState σ).Gives ((System.ofFiles files clock).read path) got →
      got = files path := fun ⟨_, h⟩ => h
  apply (Results.ofState σ).run_answers hread _ ⟨s, rfl⟩
  rintro _ time ⟨s, rfl⟩ ⟨s', htime⟩
  exact ⟨s, s', htime⟩

end OfFiles

/-- **A command line reports the first stage that fails**, whatever the files are and whatever the
clock says: one that always gives the same time, or one that changes as it is read. -/
theorem run_reports_first_failure (files : Files) (args : List String) :
    (∀ time, let transcript := run (m := Id) (.ofFiles files (pure (pure time))) args
      Answers files (· = time) args transcript ∧
      (transcript.status = 0 ↔ Succeeds files args)) ∧
    ∀ (σ : Type) (clock : StateM σ (StateM σ String)) (s : σ),
      let transcript := (run (.ofFiles files clock) args s).1
      Answers files (fun time => ∃ s s', time = ((clock s).1 s').1) args transcript ∧
      (transcript.status = 0 ↔ Succeeds files args) := by
  constructor
  · intro time transcript
    have hanswers := answers_constant files args time
    exact ⟨hanswers, hanswers.status_eq_zero_iff⟩
  · intro σ clock s transcript
    have hanswers := answers_clock files args clock s
    exact ⟨hanswers, hanswers.status_eq_zero_iff⟩

end Calculator.Command
