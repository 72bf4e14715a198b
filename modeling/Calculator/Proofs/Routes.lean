/-
# What the route of a source and the listing of its tokens change

A run writes times, which no two runs have in common. What it writes otherwise is a form,
with a blank for each time, and is determined by the arguments and the files, as are its
status and what it says of a failure: together they are the draft of the run
(`Draft.ofRest`), which every clock fills in (`leaves_draft`). So two runs can be compared
by their drafts. A source that is an argument and one that is in a file have the same draft
but for the name of the source in a report (`Draft.ofSource_renamed`), and a listing of the
tokens adds a row for each of them to the form, in one place (`Draft.ofRest_listing`).

Key definitions: `Piece`, `Fills`, `Draft`, `Draft.Fits`, `Leaves`, `AddsListing`.
Key theorems: `leaves_draft`, `Draft.ofSource_renamed`, `Draft.ofRest_listing`,
`route_and_listing_change_no_more`.
-/
import Calculator.Proofs.Renaming
import Calculator.Proofs.Transcripts

namespace Calculator.Command

open Text

/-! ### Forms -/

/-- A piece of what a run writes. -/
inductive Piece
  /-- The text itself. -/
  | text (s : String)
  /-- A time. -/
  | time

/-- The text has the pieces one after the other, with a time in the place of each that is one. -/
inductive Fills (IsTime : String → Prop) : List Piece → String → Prop
  | nil : Fills IsTime [] ""
  | text (s : String) {form : List Piece} {out : String} :
    Fills IsTime form out → Fills IsTime (.text s :: form) (s ++ out)
  | time {t : String} {form : List Piece} {out : String} :
    IsTime t → Fills IsTime form out → Fills IsTime (.time :: form) (t ++ out)

namespace Fills

variable {IsTime : String → Prop} {form more : List Piece} {out out' : String}

theorem append (h : Fills IsTime form out) (h' : Fills IsTime more out') :
    Fills IsTime (form ++ more) (out ++ out') := by
  induction h with
  | nil => rwa [List.nil_append, String.empty_append]
  | text s _ ih =>
    rw [List.cons_append, String.append_assoc]
    exact .text s ih
  | time ht _ ih =>
    rw [List.cons_append, String.append_assoc]
    exact .time ht ih

theorem single (s : String) : Fills IsTime [.text s] s := by
  have hfills : Fills IsTime [.text s] (s ++ "") := .text s .nil
  rwa [String.append_empty] at hfills

theorem around {t : String} (ht : IsTime t) (before after : String) :
    Fills IsTime [.text before, .time, .text after] (before ++ t ++ after) := by
  rw [String.append_assoc]
  exact .text before (.time ht (single after))

theorem texts : ∀ lines : List String, Fills IsTime (lines.map .text) (String.join lines)
  | [] => .nil
  | line :: lines => by
    rw [String.join_cons]
    exact .text line (texts lines)

end Fills

/-- The row of the tokenizer. -/
def tokenizedForm : List Piece := [.text "Tokenized in ", .time, .text "\n"]

/-- The rows of the tokens. -/
def listingForm (tokens : List Token) : List Piece :=
  tokens.map fun token => .text (tokenLine token ++ "\n")

/-- The row of the parser, which has built so many nodes. -/
def parsedForm (nodes : Nat) : List Piece :=
  [.text "Parsed in ", .time, .text (" (" ++ decimal nodes ++ " nodes)\n")]

/-- The rows of an expression. -/
def exprForm (e : Expr) : List Piece := [.text (exprText e)]

/-- The rows of a value. -/
def valueForm (value : Int64) : List Piece :=
  [.text ("= " ++ decimal value.toInt ++ "\nTotal time: "), .time, .text "\n"]

/-! ### Drafts -/

/-- What a run leaves behind, but for the times. -/
structure Draft where
  status : Nat
  form : List Piece
  stderr : String

/-- The transcript is the draft with times filled in. -/
structure Draft.Fits (IsTime : String → Prop) (draft : Draft) (transcript : Transcript) : Prop where
  status : transcript.status = draft.status
  stdout : Fills IsTime draft.form transcript.stdout
  stderr : transcript.stderr = draft.stderr

/-- The draft with more in front of what is written. -/
def Draft.after (front : List Piece) (draft : Draft) : Draft :=
  { draft with form := front ++ draft.form }

/-- The draft of what is made of the tokens of a source. -/
def Draft.ofTokens (tokens : List Token) (source file : String) : Draft :=
  let parsed := parse tokens file 256
  let form := parsedForm parsed.parser.built
  match parsed.result with
  | .error error => ⟨1, form, error.report source⟩
  | .ok e =>
    match e.evaluate with
    | .error error => ⟨1, form ++ exprForm e, error.report source⟩
    | .ok value => ⟨0, form ++ exprForm e ++ valueForm value, ""⟩

/-- The draft of a calculation. -/
def Draft.ofSource (listing : Bool) (source file : String) : Draft :=
  match tokenize source file with
  | .error error => ⟨1, [], error.report source⟩
  | .ok tokens => (ofTokens tokens source file).after
    (tokenizedForm ++ if listing then listingForm tokens else [])

/-- The draft of a run over the files with the arguments after an optional flag. -/
def Draft.ofRest (files : Files) (listing : Bool) (rest : List String) : Draft :=
  match Invocation.ofRest listing rest with
  | .usage => ⟨2, [], usage⟩
  | .calculate listing (.expression source) => .ofSource listing source Lexer.shell
  | .calculate listing (.path path) =>
    match (files path).bind decode with
    | .error reason => ⟨1, [], "Failed to read " ++ path ++ ": " ++ reason ++ "\n"⟩
    | .ok source => .ofSource listing source (fileName path)

/-! ### A run fills in its draft -/

section Fits

variable {IsTime : String → Prop} {t : String}

theorem fills_tokens (ht : IsTime t) (listing : Bool) (tokens : List Token) :
    Fills IsTime (tokenizedForm ++ if listing then listingForm tokens else [])
      (unlines (tokensLines listing tokens t)) := by
  rw [← tokensText_eq, tokensText]
  refine (Fills.around ht "Tokenized in " "\n").append ?_
  cases listing with
  | false => exact .nil
  | true =>
    have hrows : Fills IsTime ((tokens.map fun token => tokenLine token ++ "\n").map .text)
        (String.join (tokens.map fun token => tokenLine token ++ "\n")) := Fills.texts _
    rw [List.map_map] at hrows
    simp only [listing_eq]
    exact hrows

theorem fills_parsed (ht : IsTime t) (nodes : Nat) :
    Fills IsTime (parsedForm nodes) (unlines [parseLine nodes t]) := by
  have hbreak : " nodes)\n" = " nodes)" ++ "\n" := rfl
  have htext : unlines [parseLine nodes t] =
      "Parsed in " ++ t ++ (" (" ++ decimal nodes ++ " nodes)\n") := by
    rw [unlines_cons, unlines_nil, String.append_empty, parseLine, hbreak]
    simp only [String.append_assoc]
  rw [htext]
  exact Fills.around ht "Parsed in " _

theorem fills_expr (e : Expr) : Fills IsTime (exprForm e) (e.outline ++ unlines [e.infixText]) := by
  rw [← exprText_eq]
  exact Fills.single _

theorem fills_value (ht : IsTime t) (value : Int64) : Fills IsTime (valueForm value)
    (unlines ["= " ++ decimal value.toInt, "Total time: " ++ t]) := by
  have hbreak : "\nTotal time: " = "\n" ++ "Total time: " := rfl
  have htext : unlines ["= " ++ decimal value.toInt, "Total time: " ++ t] =
      ("= " ++ decimal value.toInt ++ "\nTotal time: ") ++ t ++ "\n" := by
    simp only [unlines_cons, unlines_nil, String.append_empty, String.append_assoc, hbreak]
  rw [htext]
  exact Fills.around ht _ "\n"

/-- **What a calculation leaves behind is its draft with times filled in.** -/
theorem Reports.fits {listing : Bool} {source file : String} {transcript : Transcript}
    (h : Reports IsTime listing source file transcript) :
    (Draft.ofSource listing source file).Fits IsTime transcript := by
  unfold Draft.ofSource Draft.ofTokens Draft.after
  cases h with
  | untokenized htokens =>
    rw [htokens]
    exact ⟨rfl, .nil, rfl⟩
  | unparsed h₁ h₂ htokens hresult =>
    simp only [htokens, hresult]
    refine ⟨rfl, ?_, rfl⟩
    rw [unlines_append]
    exact (fills_tokens h₁ _ _).append (fills_parsed h₂ _)
  | unevaluated h₁ h₂ htokens hresult hvalue =>
    simp only [htokens, hresult, hvalue]
    refine ⟨rfl, ?_, rfl⟩
    rw [unlines_append, String.append_assoc, String.append_assoc]
    exact (fills_tokens h₁ _ _).append ((fills_parsed h₂ _).append (fills_expr _))
  | @evaluated tokens e value t₁ t₂ t₃ h₁ h₂ h₃ htokens hresult hvalue =>
    have hlines : unlines [e.infixText, "= " ++ decimal value.toInt, "Total time: " ++ t₃] =
        unlines [e.infixText] ++ unlines ["= " ++ decimal value.toInt, "Total time: " ++ t₃] :=
      unlines_append [e.infixText] _
    have htail : Fills IsTime (exprForm e ++ valueForm value)
        (e.outline ++ (unlines [e.infixText] ++
          unlines ["= " ++ decimal value.toInt, "Total time: " ++ t₃])) := by
      rw [← String.append_assoc]
      exact (fills_expr e).append (fills_value h₃ value)
    simp only [htokens, hresult, hvalue]
    refine ⟨rfl, ?_, rfl⟩
    rw [unlines_append, hlines, List.append_assoc, String.append_assoc, String.append_assoc]
    exact (fills_tokens h₁ _ _).append ((fills_parsed h₂ _).append htail)

/-- **What a run leaves behind is its draft with times filled in.** -/
theorem Answers.fits {files : Files} {args : List String} {transcript : Transcript}
    (h : Answers files IsTime args transcript) :
    (Draft.ofRest files (listsTokens args) (afterFlag args)).Fits IsTime transcript := by
  cases h with
  | usage hexpression hpath =>
    obtain ⟨source, hrest, -⟩ | ⟨path, hrest, -⟩ | ⟨-, -, heq⟩ :=
      ofRest_cases (listsTokens args) (afterFlag args)
    · exact absurd hrest (hexpression source)
    · exact absurd hrest (hpath path)
    · rw [Draft.ofRest, heq]
      exact ⟨rfl, .nil, rfl⟩
  | unreadable hrest hreason =>
    rw [hrest]
    simp only [Draft.ofRest, Invocation.ofRest, hreason]
    exact ⟨rfl, .nil, rfl⟩
  | notText hrest hcontent hnot =>
    rw [hrest]
    simp only [Draft.ofRest, Invocation.ofRest, hcontent, Except.bind, decode_eq_error hnot]
    exact ⟨rfl, .nil, rfl⟩
  | calculated hnames hreports =>
    generalize afterFlag args = rest at hnames
    cases hnames with
    | expression => exact hreports.fits
    | path hread hfile =>
      simp only [Draft.ofRest, Invocation.ofRest, bind_decode_eq_ok_iff.2 hread]
      rw [← hfile.eq_fileName]
      exact hreports.fits

end Fits

/-- Over the files the arguments leave behind the draft, with times that the clock gives: one that
always gives the same, and one that changes as it is read. -/
structure Leaves (files : Files) (args : List String) (draft : Draft) : Prop where
  constant : ∀ time,
    draft.Fits (· = time) (run (m := Id) (.ofFiles files (pure (pure time))) args)
  clock : ∀ (σ : Type) (clock : StateM σ (StateM σ String)) (s : σ),
    draft.Fits (fun time => ∃ s s', time = ((clock s).1 s').1) (run (.ofFiles files clock) args s).1

/-- **Every clock fills in the same draft.** -/
theorem leaves_draft (files : Files) (args : List String) :
    Leaves files args (Draft.ofRest files (listsTokens args) (afterFlag args)) where
  constant time := (answers_constant files args time).fits
  clock _ clock s := (answers_clock files args clock s).fits

/-! ### The route of the source -/

/-- The drafts are the same but for the name of the source in a report, which is the shell in the
first one. -/
structure SameDraft (name : String) (a b : Draft) : Prop where
  status : b.status = a.status
  form : b.form = a.form
  stderr : SameReport name a.stderr b.stderr

theorem SameDraft.after {name : String} {a b : Draft} (h : SameDraft name a b)
    (front : List Piece) : SameDraft name (a.after front) (b.after front) :=
  ⟨h.status, congrArg (front ++ ·) h.form, h.stderr⟩

theorem listingForm_renamed (tokens : List Token) (name : String) :
    listingForm (tokens.map (Token.renamed name)) = listingForm tokens := by
  unfold listingForm
  rw [List.map_map]
  rfl

theorem Draft.ofTokens_renamed {tokens : List Token} {source : String}
    (htokens : tokenize source Lexer.shell = .ok tokens) (name : String) :
    SameDraft name (Draft.ofTokens tokens source Lexer.shell)
      (Draft.ofTokens (tokens.map (Token.renamed name)) source name) := by
  have hsame := parse_renamed tokens Lexer.shell name 256
  unfold Draft.ofTokens
  simp only [hsame.built]
  cases hresult : (parse tokens Lexer.shell 256).result with
  | error error =>
    rw [hsame.error error hresult]
    exact ⟨rfl, rfl, Error.report_renamed (parse_pointsInto htokens hresult) name⟩
  | ok e =>
    obtain ⟨e', hresult', houtline, hinfix, hevaluate⟩ := hsame.expr e hresult
    have htext : exprForm e' = exprForm e := by
      rw [exprForm, exprText, houtline, hinfix]
      rfl
    simp only [hresult', hevaluate, htext]
    cases hvalue : e.evaluate with
    | error error =>
      have hpoints := evaluate_pointsInto htokens hresult hvalue
      exact ⟨rfl, rfl, Error.report_renamed hpoints name⟩
    | ok value => exact ⟨rfl, rfl, .none⟩

/-- **The name of a source changes no more than the reports of its errors.** -/
theorem Draft.ofSource_renamed (listing : Bool) (source name : String) :
    SameDraft name (Draft.ofSource listing source Lexer.shell)
      (Draft.ofSource listing source name) := by
  have hrenamed := tokenize_renamed source Lexer.shell name
  unfold Draft.ofSource
  cases htokens : tokenize source Lexer.shell with
  | error error =>
    have hpoints : error.PointsInto source Lexer.shell 256 :=
      tokenize_pointsInto htokens
    rw [hrenamed, htokens]
    exact ⟨rfl, rfl, Error.report_renamed hpoints name⟩
  | ok tokens =>
    rw [hrenamed, htokens]
    simp only [renamedResult, listingForm_renamed]
    exact (Draft.ofTokens_renamed htokens name).after _

/-! ### The listing of the tokens -/

/-- The arguments after an optional flag name a source, whose calculation is run, or none, and then
it does not matter whether the tokens would be listed. -/
theorem Draft.ofRest_cases (files : Files) (rest : List String) :
    (∃ source file, Names files rest source file ∧
      ∀ listing, Draft.ofRest files listing rest = Draft.ofSource listing source file) ∨
    ((∀ source file, ¬ Names files rest source file) ∧
      ∃ draft, ∀ listing, Draft.ofRest files listing rest = draft) := by
  obtain ⟨source, rfl, -⟩ | ⟨path, rfl, -⟩ | ⟨hexpression, hpath, -⟩ :=
    Command.ofRest_cases false rest
  · exact .inl ⟨source, _, .expression source, fun _ => rfl⟩
  · cases hread : (files path).bind decode with
    | ok source =>
      have hnames : Names files [path] source (fileName path) :=
        .path (bind_decode_eq_ok_iff.1 hread) (fileName_isFileName path)
      refine .inl ⟨source, fileName path, hnames, fun listing => ?_⟩
      simp only [Draft.ofRest, Invocation.ofRest, hread]
    | error reason =>
      refine .inr ⟨?_, ⟨1, [], "Failed to read " ++ path ++ ": " ++ reason ++ "\n"⟩, ?_⟩
      · intro source file hnames
        cases hnames with
        | path hread' => exact absurd (hread.symm.trans (bind_decode_eq_ok_iff.2 hread')) nofun
      · intro listing
        simp only [Draft.ofRest, Invocation.ofRest, hread]
  · refine .inr ⟨?_, ⟨2, [], usage⟩, fun listing => ?_⟩
    · intro source file hnames
      cases hnames with
      | expression => exact hexpression source rfl
      | path => exact hpath _ rfl
    · obtain ⟨source, hrest, -⟩ | ⟨path, hrest, -⟩ | ⟨-, -, heq⟩ :=
        Command.ofRest_cases listing rest
      · exact absurd hrest (hexpression source)
      · exact absurd hrest (hpath path)
      · rw [Draft.ofRest, heq]

theorem listing_of_tokenize {source file : String} {tokens : List Token}
    (h : tokenize source file = .ok tokens) :
    (∀ token ∈ tokens, '\n' ∉ (tokenLine token).toList) ∧
      ∃ last, tokens.getLast? = some last ∧ tokenLine last = "EOF ()" := by
  obtain ⟨lexemes, rfl, hstands⟩ := exists_standsIn_of_tokenize h
  refine ⟨?_, _, List.getLast?_concat, rfl⟩
  intro token hmem
  rcases List.mem_append.1 hmem with hmem | hmem
  · obtain ⟨-, front, rest, -, -, lexeme, more, -, hlexeme, htext⟩ :=
      (hstands token hmem).exists_lexemeAt
    have hnewline : '\n' ∉ token.text.toList := by
      rw [htext, String.toList_ofList]
      exact hlexeme.isLexeme.newline_not_mem
    unfold tokenLine
    split
    · decide
    · simp [hnewline]
    · simp [hnewline]
  · rw [List.mem_singleton.1 hmem]
    show '\n' ∉ "EOF ()".toList
    decide

/-- How the form changes if the tokens are listed. If the arguments name a source that is cut into
tokens, there is a row for each of them after the row of the tokenizer, the last for the end of
input. If not, nothing changes. -/
inductive AddsListing (files : Files) (args : List String) : List Piece → List Piece → Prop
  | rows {source file : String} {tokens : List Token} (rest : List Piece) :
    Names files args source file → tokenize source file = .ok tokens →
    (∀ token ∈ tokens, '\n' ∉ (tokenLine token).toList) →
    (∃ last, tokens.getLast? = some last ∧ tokenLine last = "EOF ()") →
    AddsListing files args (tokenizedForm ++ rest) (tokenizedForm ++ (listingForm tokens ++ rest))
  | nothing (form : List Piece) :
    (∀ source file tokens, Names files args source file → tokenize source file ≠ .ok tokens) →
    AddsListing files args form form

/-- **A listing of the tokens adds its rows in one place**, and changes nothing else. -/
theorem Draft.ofRest_listing (files : Files) (rest : List String) :
    let draft := Draft.ofRest files false rest
    let draft' := Draft.ofRest files true rest
    draft'.status = draft.status ∧ draft'.stderr = draft.stderr ∧
      AddsListing files rest draft.form draft'.form := by
  intro draft draft'
  obtain ⟨source, file, hnames, hdraft⟩ | ⟨hnone, other, hdraft⟩ := Draft.ofRest_cases files rest
  · have hsame : draft = Draft.ofSource false source file := hdraft false
    have hsame' : draft' = Draft.ofSource true source file := hdraft true
    rw [hsame, hsame', Draft.ofSource, Draft.ofSource]
    cases htokens : tokenize source file with
    | error error =>
      refine ⟨rfl, rfl, .nothing [] ?_⟩
      intro source' file' tokens hnames'
      obtain ⟨rfl, rfl⟩ := hnames.unique hnames'
      rw [htokens]
      nofun
    | ok tokens =>
      obtain ⟨hrows, hlast⟩ := listing_of_tokenize htokens
      refine ⟨rfl, rfl, ?_⟩
      have hadds := AddsListing.rows (Draft.ofTokens tokens source file).form hnames htokens
        hrows hlast
      rwa [← List.append_assoc] at hadds
  · have hsame : draft = other := hdraft false
    have hsame' : draft' = other := hdraft true
    rw [hsame, hsame']
    exact ⟨rfl, rfl, .nothing _ fun source file _ hnames => absurd hnames (hnone source file)⟩

/-! ### Both -/

/-- **The route of a source and the listing of its tokens change nothing but what they should.** A
run with a path and a run with the text of the file there leave behind the same status, the same
output but for times, and the same report, except that its second row has the text after the last
slash of the path instead of the shell. And `--tokens` in front of arguments that do not start with
it leaves the status and the report as they are, and the output but for times, except that a source
that is cut into tokens has a row for each of them, the end of input included, right after the
row of the tokenizer. -/
theorem route_and_listing_change_no_more (files : Files) :
    (∀ path source, path ≠ "--tokens" → files path = .ok source.toUTF8 →
      ∃ name draft draft', IsFileName path name ∧ Leaves files ["-e", source] draft ∧
        Leaves files [path] draft' ∧ SameDraft name draft draft') ∧
    ∀ args, args.head? ≠ some "--tokens" → ∃ draft draft',
      Leaves files args draft ∧ Leaves files ("--tokens" :: args) draft' ∧
        draft'.status = draft.status ∧ draft'.stderr = draft.stderr ∧
        AddsListing files args draft.form draft'.form := by
  have hflag : ∀ args : List String, args.head? ≠ some "--tokens" →
      listsTokens args = false ∧ afterFlag args = args := by
    intro args hargs
    have hlists : listsTokens args = false := by simpa [listsTokens] using hargs
    exact ⟨hlists, by rw [afterFlag, hlists]; rfl⟩
  constructor
  · intro path source hpath hcontent
    have hexpression := leaves_draft files ["-e", source]
    obtain ⟨hlists, hafter⟩ := hflag [path] (by simpa using hpath)
    have hpath := leaves_draft files [path]
    rw [hlists, hafter, Draft.ofRest] at hpath
    simp only [Invocation.ofRest, bind_decode_eq_ok_iff.2 hcontent] at hpath
    exact ⟨fileName path, _, _, fileName_isFileName path, hexpression, hpath,
      Draft.ofSource_renamed false source (fileName path)⟩
  · intro args hargs
    obtain ⟨hlists, hafter⟩ := hflag args hargs
    have hplain := leaves_draft files args
    rw [hlists, hafter] at hplain
    exact ⟨_, _, hplain, leaves_draft files ("--tokens" :: args),
      Draft.ofRest_listing files args⟩

/-- A division that fails, in the file of an absolute path and as an argument, and the file with its
tokens listed. -/
theorem route_and_listing_of_division :
    let files : Files := fun path => if path = "/d/x" then .ok "1/0".toUTF8 else .error notFound
    (∃ draft draft', Leaves files ["-e", "1/0"] draft ∧ Leaves files ["/d/x"] draft' ∧
      SameDraft "x" draft draft') ∧
    ∃ draft draft', Leaves files ["/d/x"] draft ∧ Leaves files ["--tokens", "/d/x"] draft' ∧
      draft'.status = draft.status ∧ draft'.stderr = draft.stderr ∧
      AddsListing files ["/d/x"] draft.form draft'.form := by
  intro files
  obtain ⟨hroute, hlisting⟩ := route_and_listing_change_no_more files
  obtain ⟨name, draft, draft', hname, hsame⟩ := hroute "/d/x" "1/0" (by decide) rfl
  have hx : name = "x" := hname.eq_fileName.trans (by decide +kernel)
  rw [hx] at hsame
  exact ⟨⟨draft, draft', hsame⟩, hlisting ["/d/x"] (by decide)⟩

end Calculator.Command
