import ScopeLang.Options

namespace ScopeLang

/-!
# Options win over variables

The variables are read first and the arguments one after the other. An argument either decides
a setting anew, or it hands on whatever the setting was. So a single option for a setting makes
up for the variable, also where the arguments are refused. A limit that cannot be read from its
variable is refused before there is any argument, and no option makes up for it.
-/

/-! ## One argument -/

/-- An argument that is not an option. -/
def Argument.word? : Argument → Option String
  | .positional word => some word
  | _ => none

namespace ReplConfig

/-- What one argument makes of the configuration. -/
def configure (config : ReplConfig) : Argument → Except ConfigError ReplConfig
  | .maxDepth limit => config.setMaxDepth limit
  | .prompt prompt => .ok { config with prompt := prompt }
  | .quiet => .ok { config with farewell := false }
  | .unknownFlag flag => .error (.unknownFlag flag)
  | .positional _ => .ok config

/-- What is left of the arguments, with a word in front. -/
def addWord
    (argument : Argument)
    (result : Except ConfigError (ReplConfig × List String)) :
    Except ConfigError (ReplConfig × List String) := do
  let (config, words) ← result
  return (config, argument.word?.toList ++ words)

/-- An option is no word, so none is added. -/
theorem addWord_of_option
    {argument : Argument}
    (option : argument.word? = none)
    (result : Except ConfigError (ReplConfig × List String)) :
    addWord argument result = result := by
  rw [addWord, option]
  cases result <;> rfl

/-- The arguments act on the configuration one after the other. -/
theorem applyArguments_cons (config : ReplConfig) (text : String) (rest : List String) :
    config.applyArguments (text :: rest) =
      config.configure (.ofText text) >>= fun next =>
        addWord (.ofText text) (next.applyArguments rest) := by
  rw [applyArguments]
  cases Argument.ofText text with
  | maxDepth limit =>
      simp only [configure, @addWord_of_option (.maxDepth limit) rfl]
  | prompt prompt =>
      exact (addWord_of_option rfl _).symm
  | quiet =>
      exact (addWord_of_option rfl _).symm
  | unknownFlag flag =>
      rfl
  | positional word =>
      rfl

end ReplConfig

/-- An argument decides anew what was changed. -/
def Argument.MakesUpFor (argument : Argument) (change : ReplConfig → ReplConfig) : Prop :=
  ∀ config, (change config).configure argument = config.configure argument

/-- An argument has nothing to do with what was changed. -/
def Argument.HandsOn (argument : Argument) (change : ReplConfig → ReplConfig) : Prop :=
  ∀ config, (change config).configure argument = (config.configure argument).map change

namespace ReplConfig

/--
A change of one setting is forgotten as soon as one of the arguments makes up for it. Up to
the first argument that does, the change is handed on.
-/
theorem applyArguments_change
    {change : ReplConfig → ReplConfig}
    (each : ∀ argument : Argument, argument.MakesUpFor change ∨ argument.HandsOn change)
    {arguments : List String}
    (settled : ∃ text ∈ arguments, (Argument.ofText text).MakesUpFor change)
    (config : ReplConfig) :
    (change config).applyArguments arguments = config.applyArguments arguments := by
  induction arguments generalizing config with
  | nil =>
      simp at settled
  | cons text rest inductionHypothesis =>
      rw [applyArguments_cons, applyArguments_cons]
      by_cases here : (Argument.ofText text).MakesUpFor change
      · rw [here config]
      · have later : ∃ text ∈ rest, (Argument.ofText text).MakesUpFor change := by
          simpa [here] using settled
        rw [(each (.ofText text)).resolve_left here config]
        cases config.configure (.ofText text) with
        | error refused =>
            rfl
        | ok next =>
            exact congrArg (addWord (Argument.ofText text)) (inductionHypothesis later next)

end ReplConfig

/-! ## Options as they are written -/

/-- What stands behind a beginning is what was put there. -/
theorem Text.after?_append (beginning text : String) :
    after? beginning (beginning ++ text) = some text := by
  have begins : beginning.toList.isPrefixOf (beginning ++ text).toList = true := by
    simp [String.toList_append]
  rw [after?, if_pos begins, String.toList_append, ← String.length_toList, List.drop_left,
    String.ofList_toList]

/-- The option of the call limit is recognized with any text behind its sign. -/
theorem Argument.ofText_maxDepth (limit : String) :
    ofText ("--max-depth=" ++ limit) = .maxDepth limit := by
  rw [ofText, Text.after?_append]

/-- The option of the prompt is recognized with any text behind its sign. -/
theorem Argument.ofText_prompt (prompt : String) :
    ofText ("--prompt=" ++ prompt) = .prompt prompt := by
  have noLimit : Text.after? "--max-depth=" ("--prompt=" ++ prompt) = none := by
    simp [Text.after?, String.toList_append]
  rw [ofText, noLimit, Text.after?_append]

namespace ReplConfig

/-! ## The two settings that variables have -/

/-- The configuration with another prompt. -/
def withPrompt (prompt : String) (config : ReplConfig) : ReplConfig :=
  { config with prompt := prompt }

/-- The configuration with another limit on active calls, or without one. -/
def withMaxDepth (limit : Option Nat) (config : ReplConfig) : ReplConfig :=
  { config with eval := { config.eval with maxDepth := limit } }

/-- Limit and prompt are set independently of each other. -/
theorem withMaxDepth_withPrompt (limit : Option Nat) (prompt : String) (config : ReplConfig) :
    withMaxDepth limit (withPrompt prompt config) = withPrompt prompt (withMaxDepth limit config) :=
  rfl

/-- The prompt of an argument replaces whatever prompt was chosen before. -/
theorem makesUpFor_withPrompt (chosen prompt : String) :
    (Argument.prompt chosen).MakesUpFor (withPrompt prompt) :=
  fun _ => rfl

/-- An option for the limit makes up for another limit, also when it is refused itself. -/
theorem makesUpFor_withMaxDepth (text : String) (limit : Option Nat) :
    (Argument.maxDepth text).MakesUpFor (withMaxDepth limit) := by
  intro config
  simp only [configure, setMaxDepth]
  cases Text.Decimal.count? text <;> rfl

/-- An argument for the limit hands a chosen prompt on. -/
theorem handsOn_withPrompt (text prompt : String) :
    (Argument.maxDepth text).HandsOn (withPrompt prompt) := by
  intro config
  simp only [configure, setMaxDepth]
  cases Text.Decimal.count? text <;> rfl

/-- After an option for the prompt nothing is left of another prompt. -/
theorem applyArguments_withPrompt
    {arguments : List String}
    {chosen : String}
    (member : "--prompt=" ++ chosen ∈ arguments)
    (prompt : String)
    (config : ReplConfig) :
    (config.withPrompt prompt).applyArguments arguments = config.applyArguments arguments := by
  refine applyArguments_change (fun argument => ?_) ⟨_, member, ?_⟩ config
  · cases argument with
    | prompt chosen =>
        exact .inl (makesUpFor_withPrompt chosen prompt)
    | maxDepth text =>
        exact .inr (handsOn_withPrompt text prompt)
    | quiet | unknownFlag _ | positional _ =>
        exact .inr fun _ => rfl
  · rw [Argument.ofText_prompt]
    exact makesUpFor_withPrompt chosen prompt

/-- After an option for the limit nothing is left of another limit. -/
theorem applyArguments_withMaxDepth
    {arguments : List String}
    {text : String}
    (member : "--max-depth=" ++ text ∈ arguments)
    (limit : Option Nat)
    (config : ReplConfig) :
    (config.withMaxDepth limit).applyArguments arguments = config.applyArguments arguments := by
  refine applyArguments_change (fun argument => ?_) ⟨_, member, ?_⟩ config
  · cases argument with
    | maxDepth text =>
        exact .inl (makesUpFor_withMaxDepth text limit)
    | prompt _ | quiet | unknownFlag _ | positional _ =>
        exact .inr fun _ => rfl
  · rw [Argument.ofText_maxDepth]
    exact makesUpFor_withMaxDepth text limit

/-! ## Variables and arguments -/

/-- The limit on active calls that the variables ask for, if they ask for one. -/
def limitOfVariables (lookup : String → Option String) : Except ConfigError (Option Nat) :=
  match lookup "BRAIN_MAX_DEPTH" with
  | none => .ok none
  | some text =>
      match Text.Decimal.count? text with
      | some limit => .ok (some limit)
      | none => .error (.invalidMaxDepth text)

/-- The prompt that the variables ask for, or the usual one. -/
def promptOfVariables (lookup : String → Option String) : String :=
  (lookup "BRAIN_PROMPT").getD ({} : ReplConfig).prompt

/--
The variables give a configuration with their limit and prompt, or the refusal of their
limit.
-/
theorem ofVariables_eq (lookup : String → Option String) :
    ofVariables lookup =
      (limitOfVariables lookup).map fun limit =>
        withMaxDepth limit (withPrompt (promptOfVariables lookup) {}) := by
  unfold ofVariables limitOfVariables promptOfVariables
  cases lookup "BRAIN_MAX_DEPTH" with
  | none =>
      cases lookup "BRAIN_PROMPT" <;> rfl
  | some text =>
      simp only [setMaxDepth]
      cases Text.Decimal.count? text with
      | none =>
          rfl
      | some limit =>
          cases lookup "BRAIN_PROMPT" <;> rfl

/-- A limit that cannot be read from its variable is refused, whatever the arguments are. -/
theorem ofSources_of_limit_refused
    {lookup : String → Option String}
    {refused : ConfigError}
    (limit : limitOfVariables lookup = .error refused)
    (arguments : List String) :
    ofSources arguments lookup = .error refused := by
  rw [ofSources, ofVariables_eq, limit]
  rfl

/-- With a limit that can be read, the arguments are applied to what the variables say. -/
theorem ofSources_of_limit
    {lookup : String → Option String}
    {limit : Option Nat}
    (read : limitOfVariables lookup = .ok limit)
    (arguments : List String) :
    ofSources arguments lookup =
      (withMaxDepth limit (withPrompt (promptOfVariables lookup) {})).applyArguments arguments := by
  rw [ofSources, ofVariables_eq, read]
  rfl

/-- Two lookups that may give different answers for one variable only. -/
def AlikeExcept (name : String) (first second : String → Option String) : Prop :=
  ∀ other, other ≠ name → first other = second other

/-- There is no limit in the variables, or one that can be read. -/
def LimitReadable (lookup : String → Option String) : Prop :=
  ∀ text, lookup "BRAIN_MAX_DEPTH" = some text → (Text.Decimal.count? text).isSome

/-- Variables with a readable limit give one. -/
theorem LimitReadable.exists_limit
    {lookup : String → Option String}
    (readable : LimitReadable lookup) :
    ∃ limit, limitOfVariables lookup = .ok limit := by
  unfold limitOfVariables
  cases asked : lookup "BRAIN_MAX_DEPTH" with
  | none =>
      exact ⟨none, rfl⟩
  | some text =>
      obtain ⟨limit, read⟩ := Option.isSome_iff_exists.mp (readable text asked)
      exact ⟨some limit, by simp only [read]⟩

/--
An option for the prompt wins over the variable, and so does an option for the limit on
active calls as long as the variable can be read at all: the variable then makes no difference
to the configuration and the other arguments, nor to the reason why arguments are refused. A
variable that holds no limit is refused in spite of all options.
-/
theorem options_win_over_readable_variables
    (arguments : List String)
    (first second : String → Option String) :
    (AlikeExcept "BRAIN_PROMPT" first second →
        (∃ prompt, "--prompt=" ++ prompt ∈ arguments) →
          ofSources arguments first = ofSources arguments second) ∧
      (AlikeExcept "BRAIN_MAX_DEPTH" first second →
        (∃ limit, "--max-depth=" ++ limit ∈ arguments) →
          LimitReadable first → LimitReadable second →
            ofSources arguments first = ofSources arguments second) ∧
        ∀ text,
          first "BRAIN_MAX_DEPTH" = some text →
            Text.Decimal.count? text = none →
              ofSources arguments first = .error (.invalidMaxDepth text) := by
  refine ⟨?_, ?_, ?_⟩
  · rintro alike ⟨chosen, member⟩
    have sameLimit : limitOfVariables first = limitOfVariables second := by
      unfold limitOfVariables
      rw [alike "BRAIN_MAX_DEPTH" (by decide)]
    cases read : limitOfVariables second with
    | error refused =>
        rw [ofSources_of_limit_refused read, ofSources_of_limit_refused (sameLimit.trans read)]
    | ok limit =>
        rw [ofSources_of_limit read, ofSources_of_limit (sameLimit.trans read),
          withMaxDepth_withPrompt, withMaxDepth_withPrompt, applyArguments_withPrompt member,
          applyArguments_withPrompt member]
  · rintro alike ⟨text, member⟩ firstReadable secondReadable
    have samePrompt : promptOfVariables first = promptOfVariables second := by
      unfold promptOfVariables
      rw [alike "BRAIN_PROMPT" (by decide)]
    obtain ⟨firstLimit, firstRead⟩ := firstReadable.exists_limit
    obtain ⟨secondLimit, secondRead⟩ := secondReadable.exists_limit
    rw [ofSources_of_limit firstRead, ofSources_of_limit secondRead, samePrompt,
      applyArguments_withMaxDepth member, applyArguments_withMaxDepth member]
  · intro text asked malformed
    refine ofSources_of_limit_refused ?_ arguments
    simp only [limitOfVariables, asked, malformed]

/-- Another prompt is asked for in vain, another limit too, and a malformed one is refused. -/
theorem options_win_over_readable_variables_limit :
    let arguments := ["file", "--prompt=? ", "--max-depth=3"]
    let lookup (prompt limit : Option String) (name : String) : Option String :=
      if name = "BRAIN_PROMPT" then prompt
      else if name = "BRAIN_MAX_DEPTH" then limit
      else none
    ofSources arguments (lookup (some "> ") (some " +10 ")) =
        ofSources arguments (lookup none (some " +10 ")) ∧
      ofSources arguments (lookup none (some " +10 ")) =
          ofSources arguments (lookup none none) ∧
        ofSources arguments (lookup none (some "lots")) = .error (.invalidMaxDepth "lots") := by
  intro arguments lookup
  refine ⟨?_, ?_, ?_⟩
  · refine (options_win_over_readable_variables arguments _ _).1 ?_ ⟨"? ", by decide⟩
    intro other different
    simp [lookup, different]
  · refine (options_win_over_readable_variables arguments _ _).2.1 ?_ ⟨"3", by decide⟩ ?_ ?_
    · intro other different
      simp [lookup, different]
    · rintro text asked
      obtain rfl : " +10 " = text := Option.some.inj asked
      decide
    · exact nofun
  · exact (options_win_over_readable_variables arguments _ (lookup none none)).2.2 "lots" rfl
      (by decide)

/-- A variable that holds no limit wins over an option that does. -/
theorem malformed_variable_wins_over_option :
    ¬ ∀ (arguments : List String) (first second : String → Option String),
      AlikeExcept "BRAIN_MAX_DEPTH" first second →
      (∃ limit, "--max-depth=" ++ limit ∈ arguments ∧ (Text.Decimal.count? limit).isSome) →
        ofSources arguments first = ofSources arguments second := by
  intro claimed
  let lookup (name : String) : Option String :=
    if name = "BRAIN_MAX_DEPTH" then some "lots" else none
  have alike : AlikeExcept "BRAIN_MAX_DEPTH" lookup fun _ => none := by
    intro other different
    simp [lookup, different]
  have same := claimed ["--max-depth=3"] lookup (fun _ => none) alike
    ⟨"3", by decide, by decide⟩
  have refused : ofSources ["--max-depth=3"] lookup = .error (.invalidMaxDepth "lots") := by
    rfl
  have accepted :
      ofSources ["--max-depth=3"] (fun _ => none) =
        .ok ({ eval := { maxDepth := some 3 } }, []) := by
    rfl
  rw [refused, accepted] at same
  cases same

end ReplConfig

end ScopeLang
