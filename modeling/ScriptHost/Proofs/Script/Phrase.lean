import ScriptHost.Proofs.Script.Parts
import ScriptHost.Proofs.Script.Scanning
import ScriptHost.Script.Grammar
/-!
# What the readers of the grammar accept

`Grammar.Reads actions phrase before after` is the grammar as a relation on the kinds of tokens:
the tokens `before` start with the phrase and `after` is what follows it. The readers accept
exactly that.

**Results.**
* `Grammar.reads_iff`: a reader makes a phrase of tokens exactly if the grammar does, and leaves
  the same.
* `Grammar.Reads.host_known`: every host action in a phrase is the one the action table has
  under its name.
* `Grammar.Reads.transport`: what is read depends on the action table only through the host
  actions that it contains, and on what follows only through the next token.
-/
namespace ScriptHost

namespace Grammar

/-- Tokens without their places. -/
def kinds (tokens : List Token) : List TokenKind := tokens.map (·.kind)

@[simp] theorem kinds_nil : kinds [] = [] := rfl

@[simp] theorem kinds_cons (token : Token) (rest : List Token) :
    kinds (token :: rest) = token.kind :: kinds rest :=
  rfl

theorem kinds_eq_cons {tokens : List Token} {kind : TokenKind} {rest : List TokenKind} :
    kinds tokens = kind :: rest ↔ ∃ token others, tokens = token :: others ∧ token.kind = kind ∧
      kinds others = rest :=
  List.map_eq_cons_iff

/-! ## Single tokens -/

@[simp] theorem first_cons {token : Token} {rest : List Token} (h : token.kind ≠ .endOfSource) :
    first (token :: rest) = (token, some ⟨rest, Nat.lt_succ_self _⟩) := by
  simp [first, h]

theorem first_eq_some {tokens : List Token} {token : Token} {rest : Rest tokens}
    (h : first tokens = (token, some rest)) : tokens = token :: rest.val ∧
      token.kind ≠ .endOfSource := by
  cases tokens with
  | nil => simp [first] at h
  | cons head tail =>
    by_cases eof : head.kind = .endOfSource
    · simp [first, eof] at h
    · rw [first_cons eof] at h
      cases h
      exact ⟨rfl, eof⟩

theorem take_eq_ok {α : Type} {expected : String} {accept : TokenKind → Option α}
    {tokens : List Token} {a : α} {rest : Rest tokens}
    (h : take expected accept tokens = .ok (a, rest)) :
    ∃ token, tokens = token :: rest.val ∧ accept token.kind = some a := by
  unfold take at h
  split at h
  · rename_i token rest' eq
    split at h
    · rename_i accepted
      cases h
      exact ⟨token, (first_eq_some eq).1, accepted⟩
    · simp [refuseFor, refuse] at h
  · simp [refuseFor, refuse] at h

theorem take_cons {α : Type} {expected : String} {accept : TokenKind → Option α} {token : Token}
    {rest : List Token} {a : α} (eof : token.kind ≠ .endOfSource) (h : accept token.kind = some a) :
    take expected accept (token :: rest) = .ok (a, ⟨rest, Nat.lt_succ_self _⟩) := by
  simp [take, first_cons eof, h]

theorem takeKind_eq_ok {kind : TokenKind} {expected : String} {tokens : List Token}
    {rest : Rest tokens} (h : takeKind kind expected tokens = .ok rest) :
    kinds tokens = kind :: kinds rest.val := by
  obtain ⟨⟨_, rest⟩, taken, rfl⟩ := map_eq_ok.1 h
  obtain ⟨token, eq, accepted⟩ := take_eq_ok taken
  by_cases same : token.kind = kind
  · simp [eq, same]
  · simp [same] at accepted

theorem takeKind_cons {kind : TokenKind} {expected : String} {token : Token} {rest : List Token}
    (eof : kind ≠ .endOfSource) (h : token.kind = kind) :
    takeKind kind expected (token :: rest) = .ok ⟨rest, Nat.lt_succ_self _⟩ := by
  subst h
  simp [takeKind, take_cons eof, Except.map]

theorem takeWord_cons {word : String} {token : Token} {rest : List Token}
    (h : token.kind = .word word) :
    takeWord word (token :: rest) = .ok ⟨rest, Nat.lt_succ_self _⟩ :=
  takeKind_cons nofun h

theorem takeName_eq_ok {expected : String} {tokens : List Token} {name : String}
    {rest : Rest tokens} (h : takeName expected tokens = .ok (name, rest)) :
    kinds tokens = .word name :: kinds rest.val := by
  obtain ⟨token, eq, accepted⟩ := take_eq_ok h
  split at accepted
  · rename_i kind
    cases accepted
    simp [eq, kind]
  · cases accepted

theorem takeName_cons {expected name : String} {token : Token} {rest : List Token}
    (h : token.kind = .word name) :
    takeName expected (token :: rest) = .ok (name, ⟨rest, Nat.lt_succ_self _⟩) :=
  take_cons (by simp [h]) (by simp [h])

/-- The pattern that a token writes in a `catch` clause. -/
def patternOf? : TokenKind → Option String
  | .word pattern | .text pattern => some pattern
  | _ => none

theorem takePattern_eq_ok {tokens : List Token} {pattern : String} {rest : Rest tokens}
    (h : takePattern tokens = .ok (pattern, rest)) :
    ∃ kind, patternOf? kind = some pattern ∧ kinds tokens = kind :: kinds rest.val := by
  obtain ⟨token, eq, accepted⟩ := take_eq_ok h
  refine ⟨token.kind, ?_, by simp [eq]⟩
  split at accepted
  · rename_i kind; simpa [patternOf?, kind] using accepted
  · rename_i kind; simpa [patternOf?, kind] using accepted
  · cases accepted

theorem takePattern_cons {pattern : String} {token : Token} {rest : List Token}
    (h : patternOf? token.kind = some pattern) :
    takePattern (token :: rest) = .ok (pattern, ⟨rest, Nat.lt_succ_self _⟩) := by
  refine take_cons (fun eof => by simp [eof, patternOf?] at h) ?_
  cases kind : token.kind <;> simp_all [patternOf?]

theorem after?_eq_some {kind : TokenKind} {tokens : List Token} {rest : Rest tokens}
    (h : after? kind tokens = some rest) : kinds tokens = kind :: kinds rest.val := by
  unfold after? at h
  split at h
  · rename_i token rest' eq
    obtain ⟨eq, -⟩ := first_eq_some eq
    split at h
    · rename_i same
      cases h
      simp [eq, same]
    · cases h
  · cases h

theorem after?_cons {kind : TokenKind} {token : Token} {rest : List Token}
    (eof : kind ≠ .endOfSource) (h : token.kind = kind) :
    after? kind (token :: rest) = some ⟨rest, Nat.lt_succ_self _⟩ := by
  subst h
  simp [after?, first_cons eof]

theorem after?_eq_none {kind : TokenKind} (eof : kind ≠ .endOfSource) {tokens : List Token} :
    after? kind tokens = none ↔ (kinds tokens).head? ≠ some kind := by
  constructor
  · intro h
    cases tokens with
    | nil => simp
    | cons token rest =>
      intro same
      rw [after?_cons eof (by simpa using same)] at h
      cases h
  · intro h
    cases eq : after? kind tokens with
    | none => rfl
    | some rest => exact absurd (by simp [after?_eq_some eq]) h

/-! ## The grammar as a relation -/

/-- What a reader may make of tokens. -/
inductive Phrase where
  | statement (s : Statement)
  /-- The statements of a block and the brace that closes it. -/
  | body (list : List Statement)
  | clauses (list : List (String × Statement))
  | arguments (count : Nat) (list : List (Param Statement Value))

/-- The tokens start with the phrase, and what follows it is left. -/
inductive Reads (actions : Table HostAction) : Phrase → List TokenKind → List TokenKind → Prop
  | block {body rest after} : Reads actions (.body body) rest after →
      Reads actions (.statement (.block body)) (.openBrace :: rest) after
  | text {content after} :
      Reads actions (.statement (.literal (.string content))) (.text content :: after) after
  | integer {n after} :
      Reads actions (.statement (.literal (.number (.whole (Whole.ofInt64 n)))))
        (.integer n :: after) after
  | decimal {x after} : Reads actions (.statement (.literal (Value.ofBinary64 x)))
    (.decimal x :: after) after
  | reference {name after} : Reads actions (.statement (.reference name))
    (.reference name :: after) after
  | literal {word value after} : Keyword.ofWord? word = some (.literal value) →
      Reads actions (.statement (.literal value)) (.word word :: after) after
  | print {word line rest after} : Keyword.ofWord? word = some .print →
      Reads actions (.statement line) rest after →
      Reads actions (.statement (.print line.toParam.narrow)) (.word word :: rest) after
  | assign {word name value rest after} : Keyword.ofWord? word = some .assign →
      Reads actions (.statement value) rest after →
      Reads actions (.statement (.assign name value.toParam))
        (.word word :: .word name :: .word "to" :: rest) after
  | fetch {word name after} : Keyword.ofWord? word = some .fetch →
      Reads actions (.statement (.reference name)) (.word word :: .word name :: after) after
  | negate {word value rest after} : Keyword.ofWord? word = some .negate →
      Reads actions (.statement value) rest after →
      Reads actions (.statement (.negate value.toParam.narrow)) (.word word :: rest) after
  | choose {word condition whenTrue rest middle after} : Keyword.ofWord? word = some .choose →
      Reads actions (.statement condition) rest (.word "then" :: middle) →
      Reads actions (.statement whenTrue) middle after →
      after.head? ≠ some (.word "else") →
      Reads actions (.statement (.choose condition.toParam.narrow whenTrue none))
        (.word word :: rest) after
  | chooseElse {word condition whenTrue whenFalse rest middle last after} :
      Keyword.ofWord? word = some .choose →
      Reads actions (.statement condition) rest (.word "then" :: middle) →
      Reads actions (.statement whenTrue) middle (.word "else" :: last) →
      Reads actions (.statement whenFalse) last after →
      Reads actions (.statement (.choose condition.toParam.narrow whenTrue (some whenFalse)))
        (.word word :: rest) after
  | attempt {word body clauses rest middle after} : Keyword.ofWord? word = some .attempt →
      Reads actions (.statement body) rest middle →
      Reads actions (.clauses clauses) middle after →
      clauses ≠ [] →
      Reads actions (.statement (.attempt body clauses)) (.word word :: rest) after
  | throw {word message rest after} : Keyword.ofWord? word = some .throw →
      Reads actions (.statement message) rest after →
      Reads actions (.statement (.throw message.toParam.narrow)) (.word word :: rest) after
  | call {word routine after} : Keyword.ofWord? word = some .call →
      Reads actions (.statement (.call routine)) (.word word :: .word routine :: after) after
  | wait {word milliseconds rest after} : Keyword.ofWord? word = some .wait →
      Reads actions (.statement milliseconds) rest after →
      Reads actions (.statement (.wait milliseconds.toParam.narrow)) (.word word :: rest) after
  | host {word action arguments rest after} : Keyword.ofWord? word = none →
      actions.get? word = some action →
      Reads actions (.arguments action.arity arguments) rest after →
      Reads actions (.statement (.host word action arguments)) (.word word :: rest) after
  | bodyEnd {after} : Reads actions (.body []) (.closeBrace :: after) after
  | bodyMore {s list before middle after} :
      Reads actions (.statement s) before middle →
      Reads actions (.body list) middle after →
      Reads actions (.body (s :: list)) before after
  | clausesEnd {after} : after.head? ≠ some (.word "catch") →
    Reads actions (.clauses []) after after
  | clausesMore {kind pattern body list rest middle after} : patternOf? kind = some pattern →
      Reads actions (.statement body) rest middle →
      Reads actions (.clauses list) middle after →
      Reads actions (.clauses ((pattern, body) :: list))
        (.word "catch" :: .word "with" :: kind :: rest) after
  | argumentsEnd {after} : Reads actions (.arguments 0 []) after after
  | argumentsMore {count s list before middle after} :
      Reads actions (.statement s) before middle →
      Reads actions (.arguments count list) middle after →
      Reads actions (.arguments (count + 1) (s.toParam :: list)) before after

/-- The reader of a phrase makes it of the tokens, and leaves the rest. -/
def Makes (actions : Table HostAction) (tokens : List Token) (after : List TokenKind) :
    Phrase → Prop
  | .statement s => ∃ rest, statement actions tokens = .ok (s, rest) ∧ kinds rest.val = after
  | .body list => ∃ rest, blockBody actions tokens = .ok (list, rest) ∧ kinds rest.val = after
  | .clauses list => ∃ rest, catchClauses actions tokens = .ok (list, rest) ∧ kinds rest.val = after
  | .arguments count list => ∃ rest, arguments actions count tokens = .ok (list, rest) ∧
    kinds rest.val = after

theorem Reads.starts {actions : Table HostAction} {s : Statement} {before after : List TokenKind}
    (h : Reads actions (.statement s) before after) :
    ∃ kind rest, before = kind :: rest ∧ kind ≠ .closeBrace ∧ kind ≠ .endOfSource := by
  cases h <;> exact ⟨_, _, rfl, nofun, nofun⟩

/-- A word that starts a statement hands on what is made of the tokens behind it. -/
theorem makes_of_word {actions : Table HostAction} {token : Token} {word : String}
    {others : List Token} {s : Statement} {after : List TokenKind} (kind : token.kind = .word word)
    (h : ∃ rest, wordStatement actions token word others = .ok (s, rest) ∧ kinds rest.val = after) :
    Makes actions (token :: others) after (.statement s) := by
  obtain ⟨rest, made, left⟩ := h
  refine ⟨Rest.andTail ⟨others, Nat.lt_succ_self _⟩ rest, ?_, left⟩
  rw [statement, first_cons (by simp [kind])]
  simp only [kind]
  rw [made]
  rfl

theorem Reads.makes {actions : Table HostAction} {phrase : Phrase} {before after : List TokenKind}
    (h : Reads actions phrase before after) : ∀ tokens, kinds tokens = before →
      Makes actions tokens after phrase := by
  induction h with
  | block _ ih =>
    intro tokens eq
    obtain ⟨token, others, rfl, kind, rfl⟩ := kinds_eq_cons.1 eq
    obtain ⟨rest, made, left⟩ := ih others rfl
    refine ⟨Rest.andThen ⟨others, Nat.lt_succ_self _⟩ rest, ?_, left⟩
    rw [statement, first_cons (by simp [kind])]
    simp only [kind]
    rw [made]
    rfl
  | text | integer | decimal | reference =>
    intro tokens eq
    obtain ⟨token, others, rfl, kind, rfl⟩ := kinds_eq_cons.1 eq
    refine ⟨⟨others, Nat.lt_succ_self _⟩, ?_, rfl⟩
    rw [statement, first_cons (by simp [kind])]
    simp only [kind]
  | literal keyword =>
    intro tokens eq
    obtain ⟨token, others, rfl, kind, rfl⟩ := kinds_eq_cons.1 eq
    refine makes_of_word kind ⟨⟨others, Nat.le_refl _⟩, ?_, rfl⟩
    rw [wordStatement]
    simp only [keyword]
  | print keyword _ ih | negate keyword _ ih | throw keyword _ ih | wait keyword _ ih =>
    intro tokens eq
    obtain ⟨token, others, rfl, kind, rfl⟩ := kinds_eq_cons.1 eq
    obtain ⟨rest, made, left⟩ := ih others rfl
    refine makes_of_word kind ⟨rest.toTail, ?_, left⟩
    rw [wordStatement]
    simp only [keyword]
    rw [made]
    rfl
  | fetch keyword | call keyword =>
    intro tokens eq
    obtain ⟨token, others, rfl, kind, eq⟩ := kinds_eq_cons.1 eq
    obtain ⟨name, others, rfl, named, rfl⟩ := kinds_eq_cons.1 eq
    refine makes_of_word kind ⟨Rest.toTail ⟨others, Nat.lt_succ_self _⟩, ?_, rfl⟩
    rw [wordStatement]
    simp only [keyword]
    rw [takeName_cons named]
    rfl
  | assign keyword _ ih =>
    intro tokens eq
    obtain ⟨token, others, rfl, kind, eq⟩ := kinds_eq_cons.1 eq
    obtain ⟨name, others, rfl, named, eq⟩ := kinds_eq_cons.1 eq
    obtain ⟨toward, others, rfl, isTo, rfl⟩ := kinds_eq_cons.1 eq
    obtain ⟨rest, made, left⟩ := ih others rfl
    refine makes_of_word kind ⟨⟨rest.val, ?_⟩, ?_, left⟩
    · have := rest.property
      simp only [List.length_cons]
      omega
    rw [wordStatement]
    simp only [keyword]
    rw [takeName_cons named, ok_bind, takeWord_cons isTo, ok_bind]
    simp only [Rest.andThen]
    rw [made]
    rfl
  | choose keyword _ _ noElse ihCondition ihTrue =>
    intro tokens eq
    obtain ⟨token, others, rfl, kind, rfl⟩ := kinds_eq_cons.1 eq
    obtain ⟨⟨behind, shorter⟩, made, left⟩ := ihCondition others rfl
    obtain ⟨connective, middle, rfl, isThen, rfl⟩ := kinds_eq_cons.1 left
    obtain ⟨rest, madeTrue, rfl⟩ := ihTrue middle rfl
    have shorter := Nat.lt_of_succ_lt shorter
    refine makes_of_word kind
      ⟨⟨rest.val, Nat.le_of_lt (Nat.lt_trans rest.property shorter)⟩, ?_, rfl⟩
    rw [wordStatement]
    simp only [keyword]
    rw [made, ok_bind]
    simp only
    rw [takeWord_cons isThen, ok_bind]
    simp only [Rest.andThen]
    rw [madeTrue, ok_bind]
    simp only
    rw [(after?_eq_none (by simp)).2 noElse]
    rfl
  | chooseElse keyword _ _ _ ihCondition ihTrue ihFalse =>
    intro tokens eq
    obtain ⟨token, others, rfl, kind, rfl⟩ := kinds_eq_cons.1 eq
    obtain ⟨⟨behind, shorter⟩, made, left⟩ := ihCondition others rfl
    obtain ⟨connective, middle, rfl, isThen, rfl⟩ := kinds_eq_cons.1 left
    obtain ⟨⟨behind, shorterTrue⟩, madeTrue, left⟩ := ihTrue middle rfl
    obtain ⟨connective', last, rfl, isElse, rfl⟩ := kinds_eq_cons.1 left
    obtain ⟨rest, madeFalse, rfl⟩ := ihFalse last rfl
    have shorter := Nat.lt_trans (Nat.lt_of_succ_lt shorterTrue) (Nat.lt_of_succ_lt shorter)
    refine makes_of_word kind
      ⟨⟨rest.val, Nat.le_of_lt (Nat.lt_trans rest.property shorter)⟩, ?_, rfl⟩
    rw [wordStatement]
    simp only [keyword]
    rw [made, ok_bind]
    simp only
    rw [takeWord_cons isThen, ok_bind]
    simp only [Rest.andThen]
    rw [madeTrue, ok_bind]
    simp only
    rw [after?_cons (by simp) isElse]
    simp only
    rw [madeFalse]
    rfl
  | attempt keyword _ _ some ihBody ihClauses =>
    intro tokens eq
    obtain ⟨token, others, rfl, kind, rfl⟩ := kinds_eq_cons.1 eq
    obtain ⟨middle, made, rfl⟩ := ihBody others rfl
    obtain ⟨rest, madeClauses, left⟩ := ihClauses middle.val rfl
    refine makes_of_word kind ⟨(middle.andTail rest).toTail, ?_, left⟩
    rw [wordStatement]
    simp only [keyword]
    rw [made, ok_bind]
    simp only
    rw [madeClauses, ok_bind]
    simp [some, Pure.pure, Except.pure]
  | host keyword known _ ih =>
    intro tokens eq
    obtain ⟨token, others, rfl, kind, rfl⟩ := kinds_eq_cons.1 eq
    obtain ⟨rest, made, left⟩ := ih others rfl
    refine makes_of_word kind ⟨rest, ?_, left⟩
    rw [wordStatement]
    simp only [keyword, known]
    rw [made]
    rfl
  | bodyEnd =>
    intro tokens eq
    obtain ⟨token, others, rfl, kind, rfl⟩ := kinds_eq_cons.1 eq
    refine ⟨⟨others, Nat.lt_succ_self _⟩, ?_, rfl⟩
    rw [blockBody, after?_cons (by simp) kind]
  | bodyMore first _ ihFirst ihList =>
    intro tokens eq
    obtain ⟨middle, made, rfl⟩ := ihFirst tokens eq
    obtain ⟨rest, madeList, left⟩ := ihList middle.val rfl
    obtain ⟨kind, behind, rfl, notBrace, notEnd⟩ := first.starts
    obtain ⟨token, others, rfl, rfl, rfl⟩ := kinds_eq_cons.1 eq
    refine ⟨middle.andThen rest, ?_, left⟩
    rw [blockBody, (after?_eq_none (by simp)).2 (by simpa using notBrace), first_cons notEnd]
    simp only
    rw [made, ok_bind]
    simp only
    rw [madeList]
    rfl
  | clausesEnd noCatch =>
    intro tokens eq
    subst eq
    refine ⟨⟨tokens, Nat.le_refl _⟩, ?_, rfl⟩
    rw [catchClauses, (after?_eq_none (by simp)).2 noCatch]
  | clausesMore isPattern _ _ ihBody ihList =>
    intro tokens eq
    obtain ⟨token, others, rfl, kind, eq⟩ := kinds_eq_cons.1 eq
    obtain ⟨connective, others, rfl, isWith, eq⟩ := kinds_eq_cons.1 eq
    obtain ⟨pattern, others, rfl, rfl, rfl⟩ := kinds_eq_cons.1 eq
    obtain ⟨middle, made, rfl⟩ := ihBody others rfl
    obtain ⟨rest, madeList, left⟩ := ihList middle.val rfl
    refine ⟨⟨rest.val, ?_⟩, ?_, left⟩
    · have := rest.property
      have := middle.property
      simp only [List.length_cons]
      omega
    rw [catchClauses, after?_cons (by simp) kind]
    simp only
    rw [takeWord_cons isWith, ok_bind]
    simp only [Rest.andThen]
    rw [takePattern_cons isPattern, ok_bind]
    simp only
    rw [made, ok_bind]
    simp only
    rw [madeList]
    rfl
  | argumentsEnd =>
    intro tokens eq
    refine ⟨⟨tokens, Nat.le_refl _⟩, ?_, eq⟩
    rw [arguments]
  | argumentsMore _ _ ihFirst ihList =>
    intro tokens eq
    obtain ⟨middle, made, rfl⟩ := ihFirst tokens eq
    obtain ⟨rest, madeList, left⟩ := ihList middle.val rfl
    refine ⟨(middle.andTail rest).toTail, ?_, left⟩
    rw [arguments, made, ok_bind]
    simp only
    rw [madeList]
    rfl

/-- The readers do nothing with some tokens that the grammar does not allow. -/
def Sound (actions : Table HostAction) (tokens : List Token) : Prop :=
  ∀ phrase after, Makes actions tokens after phrase → Reads actions phrase (kinds tokens) after

theorem word_sound {actions : Table HostAction} {token : Token} {word : String}
    {tokens : List Token} {s : Statement} {rest : Tail tokens}
    (sound : ∀ others, others.length ≤ tokens.length →
      Sound actions others)
    (h : wordStatement actions token word tokens = .ok (s, rest)) :
    Reads actions (.statement s) (.word word :: kinds tokens) (kinds rest.val) := by
  rw [wordStatement] at h
  split at h
  · rename_i keyword
    cases h
    exact .literal keyword
  · rename_i keyword
    obtain ⟨⟨line, behind⟩, made, h⟩ := bind_eq_ok.1 h
    cases h
    exact .print keyword (sound _ (Nat.le_refl _) (.statement line) _ ⟨_, made, rfl⟩)
  · rename_i keyword
    obtain ⟨⟨name, behind⟩, named, h⟩ := bind_eq_ok.1 h
    obtain ⟨afterTo, isTo, h⟩ := bind_eq_ok.1 h
    obtain ⟨⟨value, last⟩, made, h⟩ := bind_eq_ok.1 h
    cases h
    rw [takeName_eq_ok named, takeKind_eq_ok isTo]
    have shorter : afterTo.val.length ≤ tokens.length :=
      Nat.le_of_lt (behind.andThen afterTo).property
    exact .assign keyword (sound _ shorter (.statement value) _ ⟨_, made, rfl⟩)
  · rename_i keyword
    obtain ⟨⟨name, behind⟩, named, h⟩ := bind_eq_ok.1 h
    cases h
    rw [takeName_eq_ok named]
    exact .fetch keyword
  · rename_i keyword
    obtain ⟨⟨value, behind⟩, made, h⟩ := bind_eq_ok.1 h
    cases h
    exact .negate keyword (sound _ (Nat.le_refl _) (.statement value) _ ⟨_, made, rfl⟩)
  · rename_i keyword
    obtain ⟨⟨condition, behind⟩, made, h⟩ := bind_eq_ok.1 h
    obtain ⟨afterThen, isThen, h⟩ := bind_eq_ok.1 h
    obtain ⟨⟨whenTrue, behindTrue⟩, madeTrue, h⟩ := bind_eq_ok.1 h
    have tested := sound _ (Nat.le_refl _) (.statement condition) _ ⟨_, made, rfl⟩
    rw [takeKind_eq_ok isThen] at tested
    have shorter := (behind.andThen afterThen).property
    have first := sound afterThen.val (Nat.le_of_lt shorter) (.statement whenTrue) _
      ⟨_, madeTrue, rfl⟩
    simp only at h
    split at h
    · rename_i noElse
      cases h
      exact .choose keyword tested first ((after?_eq_none (by simp)).1 noElse)
    · rename_i afterElse isElse
      obtain ⟨⟨whenFalse, last⟩, madeFalse, h⟩ := bind_eq_ok.1 h
      cases h
      have left : kinds behindTrue.val = .word "else" :: kinds afterElse.val :=
        after?_eq_some isElse
      rw [left] at first
      have shorter := ((behind.andThen afterThen).andThen (behindTrue.andThen afterElse)).property
      exact .chooseElse keyword tested first
        (sound _ (Nat.le_of_lt shorter) (.statement whenFalse) _ ⟨_, madeFalse, rfl⟩)
  · rename_i keyword
    obtain ⟨⟨body, behind⟩, made, h⟩ := bind_eq_ok.1 h
    obtain ⟨⟨clauses, last⟩, madeClauses, h⟩ := bind_eq_ok.1 h
    simp only at h
    split at h
    · cases h
    · rename_i some
      cases h
      exact .attempt keyword (sound _ (Nat.le_refl _) (.statement body) _ ⟨_, made, rfl⟩)
        (sound _ (Nat.le_of_lt behind.property) (.clauses clauses) _ ⟨_, madeClauses, rfl⟩)
          (by simpa using some)
  · rename_i keyword
    obtain ⟨⟨message, behind⟩, made, h⟩ := bind_eq_ok.1 h
    cases h
    exact .throw keyword (sound _ (Nat.le_refl _) (.statement message) _ ⟨_, made, rfl⟩)
  · rename_i keyword
    obtain ⟨⟨routine, behind⟩, named, h⟩ := bind_eq_ok.1 h
    cases h
    rw [takeName_eq_ok named]
    exact .call keyword
  · rename_i keyword
    obtain ⟨⟨milliseconds, behind⟩, made, h⟩ := bind_eq_ok.1 h
    cases h
    exact .wait keyword (sound _ (Nat.le_refl _) (.statement milliseconds) _ ⟨_, made, rfl⟩)
  · cases h
  · cases h
  · rename_i keyword
    split at h
    · cases h
    · rename_i action known
      obtain ⟨⟨args, behind⟩, made, h⟩ := bind_eq_ok.1 h
      cases h
      exact .host keyword known (sound _ (Nat.le_refl _) (.arguments action.arity args) _
        ⟨_, made, rfl⟩)

theorem statement_sound {actions : Table HostAction} {tokens : List Token} {s : Statement}
    {rest : Rest tokens} (sound : ∀ others, others.length < tokens.length → Sound actions others)
    (h : statement actions tokens = .ok (s, rest)) :
    Reads actions (.statement s) (kinds tokens) (kinds rest.val) := by
  rw [statement] at h
  split at h
  · cases h
  · rename_i token others eq
    obtain ⟨eq, -⟩ := first_eq_some eq
    have shorter : kinds tokens = token.kind :: kinds others.val := by
      rw [congrArg kinds eq, kinds_cons]
    rw [shorter]
    split at h
    · rename_i kind
      obtain ⟨⟨body, behind⟩, made, h⟩ := bind_eq_ok.1 h
      cases h
      rw [kind]
      exact .block (sound _ others.property (.body body) _ ⟨_, made, rfl⟩)
    · rename_i kind
      cases h
      rw [kind]
      exact .text
    · rename_i kind
      cases h
      rw [kind]
      exact .integer
    · rename_i kind
      cases h
      rw [kind]
      exact .decimal
    · rename_i kind
      cases h
      rw [kind]
      exact .reference
    · rename_i word kind
      obtain ⟨⟨read, behind⟩, made, h⟩ := bind_eq_ok.1 h
      cases h
      rw [kind]
      exact word_sound (fun more le => sound more (Nat.lt_of_le_of_lt le others.property)) made
    · cases h

/-- The readers do nothing that the grammar does not allow. -/
theorem sound (actions : Table HostAction) (tokens : List Token) : Sound actions tokens := by
  intro phrase after made
  have shorter (others : List Token) (_h : others.length < tokens.length) : Sound actions others :=
    sound actions others
  cases phrase with
  | statement s =>
    obtain ⟨rest, made, rfl⟩ := made
    exact statement_sound shorter made
  | body list =>
    obtain ⟨rest, made, rfl⟩ := made
    rw [blockBody] at made
    split at made
    · rename_i closed
      cases made
      rw [after?_eq_some closed]
      exact .bodyEnd
    · split at made
      · cases made
      · obtain ⟨⟨read, behind⟩, madeFirst, made⟩ := bind_eq_ok.1 made
        obtain ⟨⟨others, last⟩, madeList, made⟩ := bind_eq_ok.1 made
        cases made
        exact .bodyMore (statement_sound shorter madeFirst)
          (shorter _ behind.property (.body others) _ ⟨_, madeList, rfl⟩)
  | clauses list =>
    obtain ⟨rest, made, rfl⟩ := made
    rw [catchClauses] at made
    split at made
    · rename_i noCatch
      cases made
      exact .clausesEnd ((after?_eq_none (by simp)).1 noCatch)
    · rename_i afterCatch isCatch
      obtain ⟨afterWith, isWith, made⟩ := bind_eq_ok.1 made
      obtain ⟨⟨pattern, afterPattern⟩, taken, made⟩ := bind_eq_ok.1 made
      obtain ⟨⟨body, behind⟩, madeBody, made⟩ := bind_eq_ok.1 made
      obtain ⟨⟨others, last⟩, madeList, made⟩ := bind_eq_ok.1 made
      cases made
      obtain ⟨kind, isPattern, eq⟩ := takePattern_eq_ok taken
      rw [after?_eq_some isCatch, takeKind_eq_ok isWith]
      simp only [Rest.andThen] at eq
      rw [eq]
      exact .clausesMore isPattern
        (shorter _ ((afterCatch.andThen afterWith).andThen afterPattern).property
          (.statement body) _
          ⟨_, madeBody, rfl⟩)
        (shorter _ (((afterCatch.andThen afterWith).andThen afterPattern).andThen behind).property
          (.clauses others) _ ⟨_, madeList, rfl⟩)
  | arguments count list =>
    obtain ⟨rest, made, rfl⟩ := made
    cases count with
    | zero =>
      rw [arguments] at made
      cases made
      exact .argumentsEnd
    | succ count =>
      rw [arguments] at made
      obtain ⟨⟨argument, behind⟩, madeFirst, made⟩ := bind_eq_ok.1 made
      obtain ⟨⟨others, last⟩, madeList, made⟩ := bind_eq_ok.1 made
      cases made
      exact .argumentsMore (statement_sound shorter madeFirst)
        (shorter _ behind.property (.arguments _ others) _ ⟨_, madeList, rfl⟩)
termination_by tokens.length

/-- A reader makes a phrase of tokens exactly if the grammar does, and leaves the same. -/
theorem reads_iff {actions : Table HostAction} {phrase : Phrase} {tokens : List Token}
    {after : List TokenKind} : Reads actions phrase (kinds tokens) after ↔
      Makes actions tokens after phrase :=
  ⟨fun h => h.makes tokens rfl, sound actions tokens phrase after⟩

/-! ## The action table -/

/-- A host action of this name stands inside a phrase. -/
def Phrase.Uses (phrase : Phrase) (name : String) (action : HostAction) : Prop :=
  match phrase with
  | .statement s => s.Uses name action
  | .body list => ∃ s ∈ list, s.Uses name action
  | .clauses list => ∃ clause ∈ list, clause.2.Uses name action
  | .arguments _ list => ∃ param ∈ list, param.Uses name action

/-- Every host action in a phrase is the one the action table has under its name. -/
theorem Reads.host_known {actions : Table HostAction} {phrase : Phrase}
    {before after : List TokenKind} (h : Reads actions phrase before after) {name : String}
    {action : HostAction} : phrase.Uses name action → actions.get? name = some action := by
  induction h with
  | text | integer | decimal | reference | literal | fetch | call
  | bodyEnd | clausesEnd | argumentsEnd =>
    simp [Phrase.Uses]
  | block _ ih | print _ _ ih | assign _ _ ih | negate _ _ ih | throw _ _ ih | wait _ _ ih =>
    simpa [Phrase.Uses] using ih
  | choose _ _ _ _ ihCondition ihTrue =>
    simp only [Phrase.Uses, Statement.uses_choose, Param.uses_narrow, Param.uses_toParam]
    rintro (used | used | ⟨_, mem, used⟩)
    · exact ihCondition used
    · exact ihTrue used
    · cases mem
  | chooseElse _ _ _ _ ihCondition ihTrue ihFalse =>
    simp only [Phrase.Uses, Statement.uses_choose, Param.uses_narrow, Param.uses_toParam]
    rintro (used | used | ⟨_, mem, used⟩)
    · exact ihCondition used
    · exact ihTrue used
    · cases mem
      exact ihFalse used
  | attempt _ _ _ _ ihBody ihClauses =>
    simp only [Phrase.Uses, Statement.uses_attempt]
    rintro (used | used)
    · exact ihBody used
    · exact ihClauses used
  | host _ known _ ih =>
    simp only [Phrase.Uses, Statement.uses_host]
    rintro (⟨rfl, rfl⟩ | used)
    · exact known
    · exact ih used
  | bodyMore _ _ ihFirst ihList | clausesMore _ _ _ ihFirst ihList =>
    simp only [Phrase.Uses, List.mem_cons, exists_eq_or_imp]
    rintro (used | used)
    · exact ihFirst used
    · exact ihList used
  | argumentsMore _ _ ihFirst ihList =>
    simp only [Phrase.Uses, List.mem_cons, exists_eq_or_imp, Param.uses_toParam]
    rintro (used | used)
    · exact ihFirst used
    · exact ihList used

/-- Whether a phrase shows by itself where it ends. -/
def Phrase.Closed : Phrase → Prop
  | .body _ => True
  | _ => False

theorem Reads.shorter {actions : Table HostAction} {phrase : Phrase} {before after : List TokenKind}
    (h : Reads actions phrase before after) :
    after.length ≤ before.length ∧ (phrase.Closed → after.length < before.length) := by
  induction h <;> simp_all [Phrase.Closed] <;> omega

/-- What follows the statements of a block does not matter for the token that they start with. -/
theorem Reads.closed_head? {actions : Table HostAction} {list : List Statement}
    {taken after : List TokenKind} (h : Reads actions (.body list) (taken ++ after) after)
    (rest : List TokenKind) :
    (taken ++ rest).head? = (taken ++ after).head? := by
  have := h.shorter.2 trivial
  cases taken with
  | nil => simp at this
  | cons kind taken => rfl

/-- What may follow a phrase in place of `after`: the next token is the same, or it is none that
could go on with a phrase. -/
def Replaces (after rest : List TokenKind) : Prop :=
  rest.head? = after.head? ∨
    (rest.head? ≠ some (.word "else") ∧ rest.head? ≠ some (.word "catch"))

theorem Replaces.refl (after : List TokenKind) : Replaces after after := .inl rfl

theorem Replaces.append {after rest : List TokenKind} (h : Replaces after rest)
    (front : List TokenKind) : Replaces (front ++ after) (front ++ rest) := by
  cases front with
  | nil => exact h
  | cons => exact .inl rfl

theorem Replaces.ends {after rest : List TokenKind} (h : Replaces after rest) :
    (after.head? ≠ some (.word "else") → rest.head? ≠ some (.word "else")) ∧
      (after.head? ≠ some (.word "catch") → rest.head? ≠ some (.word "catch")) := by
  rcases h with same | ⟨noElse, noCatch⟩
  · rw [same]
    exact ⟨id, id⟩
  · exact ⟨fun _ => noElse, fun _ => noCatch⟩

/-- The tokens up to `after` are the phrase under this action table in front of everything that
may replace `after`. -/
def Movable (actions : Table HostAction) (phrase : Phrase) (before after : List TokenKind) : Prop :=
  ∃ taken, before = taken ++ after ∧ ∀ rest, phrase.Closed ∨ Replaces after rest →
    Reads actions phrase (taken ++ rest) rest

section Movable

variable {actions : Table HostAction} {inner second phrase : Phrase}
  {before middle after : List TokenKind}

/-- Tokens that are a phrase whatever follows them. -/
theorem Movable.alone (front : List TokenKind)
    (reads : ∀ rest, Reads actions phrase (front ++ rest) rest) :
    Movable actions phrase (front ++ after) after :=
  ⟨front, rfl, fun rest _ => reads rest⟩

/-- Tokens in front of one phrase, where they make another one of it. -/
theorem Movable.behind (h : Movable actions inner before after) (front : List TokenKind)
    (opened : ¬ phrase.Closed)
    (make : ∀ {before rest}, Reads actions inner before rest →
      Reads actions phrase (front ++ before) rest) :
    Movable actions phrase (front ++ before) after := by
  obtain ⟨taken, rfl, reads⟩ := h
  refine ⟨front ++ taken, by simp, fun rest next => ?_⟩
  rw [List.append_assoc]
  exact make (reads rest (.inr (next.resolve_left opened)))

/-- Tokens in front of two phrases and between them: the first one is followed by what it was
followed by, up to where the second one ends. -/
theorem Movable.pair (between : List TokenKind)
    (first : Movable actions inner before (between ++ middle))
    (last : Movable actions second middle after) (front : List TokenKind)
    (opened : ¬ phrase.Closed)
    (make : ∀ {before middle rest}, Replaces after rest →
      Reads actions inner before (between ++ middle) → Reads actions second middle rest →
      Reads actions phrase (front ++ before) rest) :
    Movable actions phrase (front ++ before) after := by
  obtain ⟨takenLast, rfl, readsLast⟩ := last
  obtain ⟨taken, rfl, reads⟩ := first
  refine ⟨front ++ taken ++ between ++ takenLast, by simp, fun rest next => ?_⟩
  have next := next.resolve_left opened
  simp only [List.append_assoc]
  refine make next (reads _ (.inr ?_)) (readsLast rest (.inr next))
  exact (next.append takenLast).append between

end Movable

/-- What was read is read under every action table that has the same host actions for it,
whatever follows, unless the next token could go on with it. -/
theorem Reads.transport {actions others : Table HostAction} {phrase : Phrase}
    {before after : List TokenKind} (h : Reads actions phrase before after) :
    (∀ name action, phrase.Uses name action → others.get? name = some action) →
      Movable others phrase before after := by
  induction h with
  | @block body rest after _ ih =>
    intro agree
    obtain ⟨taken, rfl, reads⟩ := ih (by simpa [Phrase.Uses] using agree)
    exact ⟨.openBrace :: taken, rfl, fun rest _ => .block (reads rest (.inl trivial))⟩
  | text => exact fun _ => .alone [_] fun _ => .text
  | integer => exact fun _ => .alone [_] fun _ => .integer
  | decimal => exact fun _ => .alone [_] fun _ => .decimal
  | reference => exact fun _ => .alone [_] fun _ => .reference
  | literal keyword => exact fun _ => .alone [_] fun _ => .literal keyword
  | fetch keyword => exact fun _ => .alone [_, _] fun _ => .fetch keyword
  | call keyword => exact fun _ => .alone [_, _] fun _ => .call keyword
  | print keyword _ ih =>
    intro agree
    exact (ih (by simpa [Phrase.Uses] using agree)).behind [_] id fun line => .print keyword line
  | assign keyword _ ih =>
    intro agree
    exact (ih (by simpa [Phrase.Uses] using agree)).behind [_, _, _] id fun value =>
      .assign keyword value
  | negate keyword _ ih =>
    intro agree
    exact (ih (by simpa [Phrase.Uses] using agree)).behind [_] id fun value => .negate keyword value
  | throw keyword _ ih =>
    intro agree
    exact (ih (by simpa [Phrase.Uses] using agree)).behind [_] id fun message =>
      .throw keyword message
  | wait keyword _ ih =>
    intro agree
    exact (ih (by simpa [Phrase.Uses] using agree)).behind [_] id fun milliseconds =>
      .wait keyword milliseconds
  | choose keyword _ _ noElse ihCondition ihTrue =>
    intro agree
    simp only [Phrase.Uses, Statement.uses_choose, Param.uses_narrow, Param.uses_toParam] at agree
    have condition := ihCondition fun name action used => agree name action (.inl used)
    have whenTrue := ihTrue fun name action used => agree name action (.inr (.inl used))
    exact condition.pair [.word "then"] whenTrue [_] id fun next tested first =>
      .choose keyword tested first (next.ends.1 noElse)
  | @chooseElse word condition whenTrue whenFalse _ _ _ _ keyword _ _ _
      ihCondition ihTrue ihFalse =>
    intro agree
    simp only [Phrase.Uses, Statement.uses_choose, Param.uses_narrow, Param.uses_toParam] at agree
    obtain ⟨takenFalse, rfl, readsFalse⟩ :=
      ihFalse fun name action used => agree name action (.inr (.inr ⟨_, rfl, used⟩))
    obtain ⟨takenTrue, rfl, readsTrue⟩ := ihTrue fun name action used =>
      agree name action (.inr (.inl used))
    obtain ⟨taken, rfl, reads⟩ := ihCondition fun name action used => agree name action (.inl used)
    refine ⟨.word word :: taken ++ .word "then" :: takenTrue ++ .word "else" :: takenFalse, by simp,
      fun rest next => ?_⟩
    simp only [List.cons_append, List.append_assoc]
    exact .chooseElse keyword (reads _ (.inr (.refl _))) (readsTrue _ (.inr (.refl _)))
      (readsFalse rest (.inr (next.resolve_left id)))
  | attempt keyword _ _ some ihBody ihClauses =>
    intro agree
    simp only [Phrase.Uses, Statement.uses_attempt] at agree
    have body := ihBody fun name action used => agree name action (.inl used)
    have clauses := ihClauses fun name action used => agree name action (.inr used)
    exact body.pair [] clauses [_] id fun _ tried caught =>
      .attempt keyword tried caught some
  | host keyword _ _ ih =>
    intro agree
    simp only [Phrase.Uses, Statement.uses_host] at agree
    have arguments := ih fun name action used => agree name action (.inr used)
    exact arguments.behind [_] id fun passed => .host keyword (agree _ _ (.inl ⟨rfl, rfl⟩)) passed
  | bodyEnd => exact fun _ => .alone [_] fun _ => .bodyEnd
  | bodyMore _ others_start ihFirst ihList =>
    intro agree
    simp only [Phrase.Uses, List.mem_cons, exists_eq_or_imp] at agree
    obtain ⟨takenList, rfl, readsList⟩ := ihList fun name action used =>
      agree name action (.inr used)
    obtain ⟨taken, rfl, reads⟩ := ihFirst fun name action used => agree name action (.inl used)
    refine ⟨taken ++ takenList, by simp, fun rest next => ?_⟩
    have next : (takenList ++ rest).head? = (takenList ++ _).head? := others_start.closed_head? rest
    rw [List.append_assoc]
    exact .bodyMore (reads _ (.inr (.inl next))) (readsList rest (.inl trivial))
  | clausesEnd noCatch =>
    exact fun _ => ⟨[], rfl, fun rest next => .clausesEnd ((next.resolve_left id).ends.2 noCatch)⟩
  | clausesMore isPattern _ _ ihBody ihList =>
    intro agree
    simp only [Phrase.Uses, List.mem_cons, exists_eq_or_imp] at agree
    have body := ihBody fun name action used => agree name action (.inl used)
    have list := ihList fun name action used => agree name action (.inr used)
    exact body.pair [] list [_, _, _] id fun _ caught more =>
      .clausesMore isPattern caught more
  | argumentsEnd => exact fun _ => .alone [] fun _ => .argumentsEnd
  | argumentsMore _ _ ihFirst ihList =>
    intro agree
    simp only [Phrase.Uses, List.mem_cons, exists_eq_or_imp, Param.uses_toParam] at agree
    have first := ihFirst fun name action used => agree name action (.inl used)
    have list := ihList fun name action used => agree name action (.inr used)
    exact first.pair [] list [] id fun _ one more => .argumentsMore one more

end Grammar
end ScriptHost
