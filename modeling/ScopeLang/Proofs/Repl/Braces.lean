import ScopeLang.Proofs.Repl.Loop
import ScopeLang.Proofs.Session.Calls
import ScopeLang.Proofs.Token.Spelling

namespace ScopeLang

/-!
# Counting braces

The loop counts the braces of a fragment in its characters, the parser meets them as
tokens. The two differ by the braces in comments. Since the tokens of a program have as
many opening braces as closing ones, a fragment that is a program is held back exactly
when its comments have more opening braces than closing ones.
-/

/-! ## Braces of tokens -/

/-- What a token adds to the depth of braces. -/
def TokenKind.braceDepth : TokenKind → Int
  | .symbol .leftBrace => 1
  | .symbol .rightBrace => -1
  | _ => 0

/-- Opening braces less closing braces of tokens. -/
def TokenKind.totalDepth : List TokenKind → Int
  | [] => 0
  | kind :: rest => kind.braceDepth + totalDepth rest

namespace TokenKind

@[simp] theorem totalDepth_nil :
    totalDepth [] = 0 :=
  rfl

@[simp] theorem totalDepth_cons (kind : TokenKind) (kinds : List TokenKind) :
    totalDepth (kind :: kinds) = kind.braceDepth + totalDepth kinds :=
  rfl

@[simp] theorem totalDepth_append (before after : List TokenKind) :
    totalDepth (before ++ after) = totalDepth before + totalDepth after := by
  induction before with
  | nil =>
      exact (Int.zero_add _).symm
  | cons kind rest inductionHypothesis =>
      rw [List.cons_append, totalDepth_cons, totalDepth_cons, inductionHypothesis, Int.add_assoc]

end TokenKind

/-- No binary operator is a brace. -/
theorem BinaryLevel.Spells.braceDepth_eq
    {level : BinaryLevel}
    {kind : TokenKind}
    {op : BinaryOp}
    (spells : level.Spells kind op) :
    kind.braceDepth = 0 := by
  cases spells <;> rfl

/-- No prefix operator is a brace. -/
theorem UnaryOp.Spells.braceDepth_eq
    {kind : TokenKind}
    {op : UnaryOp}
    (spells : UnaryOp.Spells kind op) :
    kind.braceDepth = 0 := by
  cases spells <;> rfl

/-- Every phrase closes the braces that it opens. -/
theorem Derives.totalDepth_eq
    {phrase : Phrase}
    {kinds : List TokenKind}
    (derivation : Derives phrase kinds) :
    TokenKind.totalDepth kinds = 0 := by
  induction derivation with
  | extended _ spells _ left right =>
      simp [left, right, spells.braceDepth_eq]
  | operator spells _ operand | argumentOperator spells _ operand =>
      simp [operand, spells.braceDepth_eq]
  | _ =>
      simp_all [TokenKind.braceDepth]

/-! ## Braces of characters -/

namespace Repl

/-- Characters of a class without braces have none. -/
theorem netBraces_of_forall
    {keep : Char → Bool}
    (noOpening : keep '\x7b' = false)
    (noClosing : keep '\x7d' = false)
    {text : List Char}
    (kept : ∀ c ∈ text, keep c = true) :
    netBraces text = 0 := by
  have missing {brace : Char} (notKept : keep brace = false) : text.count brace = 0 := by
    refine List.count_eq_zero.mpr fun member => ?_
    rw [kept brace member] at notKept
    cases notKept
  rw [netBraces, missing noOpening, missing noClosing]
  rfl

end Repl

namespace Piece

/-- The comments of a source, one after the other. -/
def comments (source : List Char) : List Char :=
  ((all source).filter (·.kind == .comment)).flatMap Piece.text

/-- The empty text has no comment. -/
theorem comments_nil :
    comments [] = [] := by
  simp [comments, all]

/-- The comments of a text are its first piece, if that is one, and those of the rest. -/
theorem comments_cons (first : Char) (rest : List Char) :
    comments (first :: rest) =
      (if (next first rest).1.kind = .comment then (next first rest).1.text else []) ++
        comments (next first rest).2 := by
  rw [comments, all, List.filter_cons]
  by_cases isComment : (next first rest).1.kind = .comment
  · simp [isComment, comments]
  · simp [isComment, comments]

/-- A symbol has the braces of its spelling. -/
theorem netBraces_spelling (mark : Symbol) :
    Repl.netBraces mark.spelling.toList = TokenKind.braceDepth (.symbol mark) := by
  cases mark <;> decide

/-- The text of a token has the braces of the token. -/
theorem netBraces_of_isTokenText
    {piece : Piece}
    {characters : List Char}
    (longest : LongestMatch characters piece.text)
    (spelled : IsTokenText piece.kind piece.text)
    (names : NameTable) :
    Repl.netBraces piece.text =
      TokenKind.totalDepth (piece.tokenKind names).1.toList := by
  unfold tokenKind
  cases shape : piece.kind with
  | spacing | comment =>
      rw [shape] at spelled
      exact spelled.elim
  | word =>
      rw [shape] at spelled
      rw [Repl.netBraces_of_forall rfl rfl fun _ => IsWord.isWordPart_of_mem spelled]
      unfold wordKind
      cases Keyword.ofSpelling? (String.ofList piece.text) <;> rfl
  | number =>
      rw [shape] at spelled
      rw [Repl.netBraces_of_forall rfl rfl spelled.2]
      simp only [numberKind]
      split <;> rfl
  | symbol mark =>
      rw [shape] at spelled
      rw [spelled, netBraces_spelling]
      simp
  | stray =>
      rw [shape] at spelled
      generalize piece.text = text at longest spelled ⊢
      cases longest with
      | lexeme _ lexeme =>
          exact (spelled lexeme).elim
      | @stray c _ _ noLexeme =>
          have noOpening : c ≠ '\x7b' := by
            rintro rfl
            exact spelled (.symbol .leftBrace)
          have noClosing : c ≠ '\x7d' := by
            rintro rfl
            exact spelled (.symbol .rightBrace)
          simp [Repl.netBraces, TokenKind.braceDepth, noOpening, noClosing]

/-- A piece that is no comment has the braces of its token, if it becomes one. -/
theorem netBraces_next
    {first : Char}
    {rest : List Char}
    (noComment : (next first rest).1.kind ≠ .comment)
    (names : NameTable) :
    Repl.netBraces (next first rest).1.text =
      TokenKind.totalDepth ((next first rest).1.tokenKind names).1.toList := by
  by_cases spacing : isSpacing first = true
  · have found : next first rest = run .spacing isSpacing first rest := by
      simp [next, spacing]
    have kept : ∀ c ∈ first :: rest.takeWhile isSpacing, isSpacing c = true :=
      List.forall_mem_cons.mpr ⟨spacing, List.all_eq_true.mp List.all_takeWhile⟩
    rw [found]
    exact Repl.netBraces_of_forall rfl rfl kept
  · rw [Bool.not_eq_true] at spacing
    have noOpening : opensComment (first :: rest) = false :=
      Bool.eq_false_iff.mpr fun comment => noComment (next_of_opensComment spacing comment).1.1
    obtain ⟨longest, spelled⟩ := next_of_nothingToSkip spacing noOpening
    exact netBraces_of_isTokenText longest spelled names

end Piece

namespace Repl

/-- The braces of a source are those of its tokens and those of its comments. -/
theorem netBraces_eq (names : NameTable) (source : List Char) :
    netBraces source =
      TokenKind.totalDepth (Token.reading names source).1 +
        netBraces (Piece.comments source) := by
  induction source using Piece.all.induct generalizing names with
  | case1 =>
      rw [Token.reading_nil, Piece.comments_nil]
      rfl
  | case2 first rest inductionHypothesis =>
      have found := (Prod.eta (Piece.next first rest)).symm
      have whole := congrArg netBraces (Piece.text_append_next first rest)
      rw [netBraces_append] at whole
      rw [← whole, Piece.comments_cons, Token.reading_cons found, netBraces_append,
        TokenKind.totalDepth_append,
        inductionHypothesis ((Piece.next first rest).1.tokenKind names).2]
      by_cases isComment : (Piece.next first rest).1.kind = .comment
      · rw [if_pos isComment, Piece.tokenKind_of_skipped (.inr isComment)]
        simp only [Option.toList_none, TokenKind.totalDepth_nil]
        omega
      · rw [if_neg isComment, Piece.netBraces_next isComment names]
        simp only [netBraces, List.count_nil]
        omega

/-- The tokens of a program have as many opening braces as closing ones. -/
theorem netBraces_of_parsed
    {source : String}
    {names : NameTable}
    {program : List Stmt}
    (parsed : parseProgram (Token.lex source names).1 = .ok program) :
    netBraces source.toList = netBraces (Piece.comments source.toList) := by
  have derivation : Derives (.sequence program) (Token.reading names source.toList).1 :=
    parseProgram_lex_eq_ok_iff.mp parsed
  rw [netBraces_eq names, derivation.totalDepth_eq, Int.zero_add]

/-- A line break is no brace. -/
theorem braceDepth_append_lineBreak (text : String) :
    braceDepth (text ++ "\n").toList = braceDepth text.toList := by
  rw [String.toList_append, braceDepth_eq_bmod, netBraces_append, braceDepth_eq_bmod]
  exact congrArg (Int.bmod · Int32.size) (Int.add_zero _)

/-- The line that completes a fragment is the last one, and any other line is not. -/
theorem readFragment_eq_ite
    {prompt gathered content : String}
    {console next : Console}
    (read : (ask prompt gathered console).readLine = (some (.text content), next)) :
    readFragment prompt gathered console =
      if braceDepth (gathered ++ content ++ "\n").toList ≤ 0 then
        (some (gathered ++ content ++ "\n"), next)
      else
        readFragment prompt (gathered ++ content ++ "\n") next := by
  split
  · rename_i balanced
    exact readFragment_eq_iff.mpr (.complete read balanced)
  · rename_i unbalanced
    have rest := gathers_readFragment prompt (gathered ++ content ++ "\n") next
    exact readFragment_eq_iff.mpr (.more read (Int.not_le.mp unbalanced) rest)

/--
The braces of a program are counted as those of its comments are, since all others balance.
The count has 32 bits, so it is the net count as long as the comments are short enough for
them. When the lines of a program have been gathered, the loop asks for another line exactly
if this count is positive.
-/
theorem program_held_back_by_comments_only
    (source : String)
    (names : NameTable)
    (program : List Stmt)
    (parsed : parseProgram (Token.lex source names).1 = .ok program) :
    let comments := Piece.comments source.toList
    braceDepth source.toList = braceDepth comments ∧
      (comments.length ≤ Int32.maxValue.toInt →
        braceDepth source.toList = comments.count '\x7b' - comments.count '\x7d') ∧
        ∀ prompt gathered content console next,
          gathered ++ content = source ∨ gathered ++ content ++ "\n" = source →
            (ask prompt gathered console).readLine = (some (.text content), next) →
              readFragment prompt gathered console =
                if braceDepth comments ≤ 0 then
                  (some (gathered ++ content ++ "\n"), next)
                else
                  readFragment prompt (gathered ++ content ++ "\n") next := by
  intro comments
  have net : netBraces source.toList = netBraces comments :=
    netBraces_of_parsed parsed
  have depth : braceDepth source.toList = braceDepth comments := by
    rw [braceDepth_eq_bmod, net, braceDepth_eq_bmod]
  refine ⟨depth, fun short => depth.trans (braceDepth_eq_netBraces short), ?_⟩
  intro prompt gathered content console next lines read
  have sameDepth : braceDepth (gathered ++ content ++ "\n").toList = braceDepth comments := by
    rw [← depth]
    rcases lines with rfl | rfl
    · exact braceDepth_append_lineBreak _
    · rfl
  rw [readFragment_eq_ite read, sameDepth]

/-- A block behind which a comment opens two braces and closes one. -/
theorem program_held_back_by_comments_only_block :
    let source := "\x7b ; \x7d # \x7d \x7b\x7b"
    let console : Console := .ofInput (.waiting [.text source])
    let next : Console := ⟨.waiting [], [.read (some (.text source)), .print "> "]⟩
    parseProgram (Token.lex source .initial).1 = .ok [.block [.skip]] ∧
      (ask "> " "" console).readLine = (some (.text source), next) ∧
        braceDepth source.toList = 1 ∧
          readFragment "> " "" console = readFragment "> " (source ++ "\n") next := by
  intro source console next
  have kinds :
      Token.kinds source .initial =
        [.symbol .leftBrace, .symbol .semicolon, .symbol .rightBrace] := by
    decide +kernel
  have parsed : parseProgram (Token.lex source .initial).1 = .ok [.block [.skip]] := by
    rw [parseProgram_lex_eq_ok_iff, kinds]
    exact .cons (.block (.body (.cons .skip .nil False.elim))) .nil False.elim
  have read : (ask "> " "" console).readLine = (some (.text source), next) := by
    decide +kernel
  have comment : braceDepth (Piece.comments source.toList) = 1 := by
    decide +kernel
  obtain ⟨depth, -, heldBack⟩ :=
    program_held_back_by_comments_only source .initial [.block [.skip]] parsed
  have goesOn := heldBack "> " "" source console next (.inl rfl) read
  rw [comment] at depth goesOn
  exact ⟨parsed, read, depth, goesOn⟩

/-- A program is held back although it is complete: its comment opens a brace. -/
theorem complete_program_held_back :
    parseProgram (Token.lex "; # \x7b" .initial).1 = .ok [.skip] ∧
      braceDepth "; # \x7b".toList ≠ 0 ∧
        (readFragment "" "" (.ofInput (.waiting [.text "; # \x7b", .text "quit"]))).1 =
          some "; # \x7b\nquit\n" := by
  have kinds : Token.kinds "; # \x7b" .initial = [.symbol .semicolon] := by
    decide +kernel
  have gathers :
      Gathers "" "" (.ofInput (.waiting [.text "; # \x7b", .text "quit"]))
        (begun "; # \x7b\nquit\n") _ :=
    .more rfl (by decide) (.more rfl (by decide) (.ended rfl))
  refine ⟨?_, by decide, ?_⟩
  · rw [parseProgram_lex_eq_ok_iff, kinds]
    exact .cons .skip .nil False.elim
  · rw [readFragment_eq_iff.mpr gathers]
    rfl

end Repl

end ScopeLang
