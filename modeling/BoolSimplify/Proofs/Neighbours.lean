/-
The neighbours of a match.

A scan asks for the last token that it has written, which belongs to a replacement when
one match stands right behind another.  Where both sides of a rule end in an operand, that
token admits the same matches as the one in whose place it stands.  The main statement says
that such a scan goes as it would go with the neighbours that its matches had before.
-/

import BoolSimplify.Proofs.Malformed

namespace BoolSimplify

/-! ### Left neighbours -/

/-- Two left neighbours admit the same matches. -/
def AdmitAlike (first second : Option Token) : Prop :=
  ∀ (strength : Strength) (next : Option Token),
    strength.admits first next = strength.admits second next

namespace AdmitAlike

variable {first second third : Option Token}

theorem refl (previous : Option Token) : AdmitAlike previous previous :=
  fun _ _ => rfl

theorem symm (alike : AdmitAlike first second) : AdmitAlike second first :=
  fun strength next => (alike strength next).symm

theorem trans (left : AdmitAlike first second) (right : AdmitAlike second third) :
    AdmitAlike first third :=
  fun strength next => (left strength next).trans (right strength next)

theorem of_endsOperand {token : Token} (ends : token.endsOperand = true) :
    AdmitAlike (some token) none := by
  intro strength next
  cases token with
  | opening => cases ends
  | conj => cases ends
  | disj => cases ends
  | neg => cases ends
  | closing => cases strength <;> rfl
  | truth value => cases strength <;> rfl
  | atom name => cases strength <;> rfl

end AdmitAlike

namespace Rule

theorem redex_congr (rule : Rule) {first second : Option Token} (alike : AdmitAlike first second)
    (tokens : List Token) : rule.redex? first tokens = rule.redex? second tokens := by
  unfold redex?
  congr 1
  funext found
  exact alike rule.strength found.rest.head?

/-- The token before a list matters until something is written, and then no more. -/
theorem scan_congr (rule : Rule) {first second : Option Token} (alike : AdmitAlike first second)
    (tokens : List Token) : rule.scan first 0 tokens = rule.scan second 0 tokens := by
  induction first, tokens using rule.scan_induct generalizing second with
  | ended first => rfl
  | passed first token rest noRedex ih =>
      have noRedexSecond := (rule.redex_congr alike _).symm.trans noRedex
      rw [rule.scan_of_no_redex _ token rest noRedex,
        rule.scan_of_no_redex _ token rest noRedexSecond]
  | replaced first tokens found redex ih =>
      have redexSecond := (rule.redex_congr alike tokens).symm.trans redex
      have alikeBehind : AdmitAlike ((found.bindings.fill rule.replacement).getLast?.or first)
          ((found.bindings.fill rule.replacement).getLast?.or second) := by
        cases (found.bindings.fill rule.replacement).getLast? with
        | none => exact alike
        | some written => exact .refl _
      rw [rule.scan_of_redex _ tokens found redex, rule.scan_of_redex _ tokens found redexSecond]
      dsimp only
      rw [ih alikeBehind]

/-! ### Scans with the neighbours from before -/

/-- The match at a position of `tokens` that may be replaced between the neighbours which
it has there. -/
def redexAt? (rule : Rule) (tokens : List Token) (position : Nat) : Option Match :=
  rule.redex? (tokens.take position).getLast? (tokens.drop position)

theorem redexAt_rest_lt {rule : Rule} {tokens : List Token} {position : Nat} {found : Match}
    (redex : rule.redexAt? tokens position = some found) :
    found.rest.length < tokens.length - position := by
  obtain ⟨matched, _⟩ := (rule.redex_eq_some_iff _ _ found).mp redex
  rw [← List.length_drop]
  exact rule.match_rest_lt _ found matched

/-- Goes through `tokens` from a position on, replaces the matches that may be replaced where
they are, and copies every other token.  A match inside of a replaced one is passed over. -/
def replaceFrom (rule : Rule) (tokens : List Token) (position : Nat) : Scanned :=
  if within : position < tokens.length then
    match redex : rule.redexAt? tokens position with
    | some found =>
        have shorter := redexAt_rest_lt redex
        let later := rule.replaceFrom tokens (tokens.length - found.rest.length)
        ⟨found.bindings.fill rule.replacement ++ later.tokens, later.fired + 1⟩
    | none =>
        let later := rule.replaceFrom tokens (position + 1)
        ⟨tokens[position] :: later.tokens, later.fired⟩
  else ⟨[], 0⟩
termination_by tokens.length - position

theorem redexAt_append (rule : Rule) (passed rest : List Token) :
    rule.redexAt? (passed ++ rest) passed.length = rule.redex? passed.getLast? rest := by
  rw [redexAt?, List.take_left, List.drop_left]

theorem replaceFrom_end (rule : Rule) (tokens : List Token) :
    rule.replaceFrom tokens tokens.length = ⟨[], 0⟩ := by
  rw [replaceFrom, dif_neg (Nat.lt_irrefl _)]

theorem replaceFrom_of_redex (rule : Rule) (tokens : List Token) (position : Nat) (found : Match)
    (redex : rule.redexAt? tokens position = some found) :
    rule.replaceFrom tokens position =
      let later := rule.replaceFrom tokens (tokens.length - found.rest.length)
      ⟨found.bindings.fill rule.replacement ++ later.tokens, later.fired + 1⟩ := by
  have within : position < tokens.length := by
    have shorter := redexAt_rest_lt redex
    omega
  rw [replaceFrom, dif_pos within]
  split
  · rename_i same sameRedex
    cases redex.symm.trans sameRedex
    rfl
  · rename_i noRedex
    cases redex.symm.trans noRedex

theorem replaceFrom_of_no_redex (rule : Rule) (tokens : List Token) (position : Nat)
    (within : position < tokens.length) (noRedex : rule.redexAt? tokens position = none) :
    rule.replaceFrom tokens position =
      let later := rule.replaceFrom tokens (position + 1)
      ⟨tokens[position] :: later.tokens, later.fired⟩ := by
  rw [replaceFrom, dif_pos within]
  split
  · rename_i found redex
    cases noRedex.symm.trans redex
  · rfl

end Rule

/-! ### Sides that end in an operand -/

/-- The last element is a slot, a truth value or `)`. -/
def EndsInOperand (elements : List Element) : Prop :=
  ∃ last ∈ elements.getLast?, last.endsOperand = true ∧ last ≠ Element.run

instance (elements : List Element) : Decidable (EndsInOperand elements) :=
  inferInstanceAs (Decidable (∃ last ∈ elements.getLast?, _))

theorem Element.endsOperand_of_literal {element : Element} {token : Token}
    (stands : element.literal? = some token) (ends : element.endsOperand = true) :
    token.endsOperand = true := by
  cases element with
  | atom placeholder => cases stands
  | opening | conj | disj | neg => cases ends
  | closing => cases stands; rfl
  | truth value => cases stands; rfl

theorem EndsInOperand.last_taken {rule : Rule} (ends : EndsInOperand rule.pattern)
    {tokens : List Token} {found : Match} (matched : rule.match? tokens = some found) :
    ∃ taken token, tokens = taken ++ token :: found.rest ∧ token.endsOperand = true := by
  obtain ⟨last, isLast, lastEnds, notRun⟩ := ends
  obtain ⟨front, patternEq⟩ := List.getLast?_eq_some_iff.mp isLast
  rw [Rule.match?, matchPrefix?, patternEq, Match.extendAll_append] at matched
  obtain ⟨reached, matchedFront, extended⟩ := Option.bind_eq_some_iff.mp matched
  obtain ⟨taken, tokensEq, _⟩ := Match.extendAll_unmatched _ reached front matchedFront
  obtain ⟨next, lastExtends, ended⟩ := Match.extendAll_cons reached found last [] extended
  cases ended
  change tokens = taken ++ reached.rest at tokensEq
  cases lastExtends with
  | slot slot letter rest bindings restEq bound =>
      exact ⟨taken, .letter letter, by rw [tokensEq, restEq], rfl⟩
  | run rest nonempty restEq => exact absurd rfl notRun
  | literal _ token rest stands restEq =>
      exact ⟨taken, token, by rw [tokensEq, restEq],
        Element.endsOperand_of_literal stands lastEnds⟩

theorem EndsInOperand.last_filled {elements : List Element} (ends : EndsInOperand elements)
    {bindings : Bindings} (bound : ∀ slot, .atom (.slot slot) ∈ elements →
      ∃ letter, bindings.letters slot = some letter) :
    ∃ token, (bindings.fill elements).getLast? = some token ∧ token.endsOperand = true := by
  obtain ⟨last, isLast, lastEnds, notRun⟩ := ends
  obtain ⟨front, elementsEq⟩ := List.getLast?_eq_some_iff.mp isLast
  obtain ⟨token, expanded, tokenEnds⟩ :
      ∃ token, last.expand bindings.image = [token] ∧ token.endsOperand = true := by
    cases last with
    | opening | conj | disj | neg => cases lastEnds
    | closing => exact ⟨.closing, rfl, rfl⟩
    | truth value => exact ⟨.truth value, rfl, rfl⟩
    | atom placeholder =>
        cases placeholder with
        | run => exact absurd rfl notRun
        | slot slot =>
            obtain ⟨letter, isLetter⟩ := bound slot (List.mem_of_getLast? isLast)
            refine ⟨Token.letter letter, ?_, rfl⟩
            rw [Symbol.expand, Bindings.image, isLetter]
            rfl
  refine ⟨token, ?_, tokenEnds⟩
  rw [elementsEq, Bindings.fill, List.flatMap_append, List.flatMap_singleton, expanded,
    List.getLast?_concat]

namespace Rule

/-- What stands to the left of the rest is read off what was written, or off what was passed
over.  This is all one while the two admit the same matches, as they do behind a replacement
and behind a token that was copied. -/
theorem scan_eq_replaceFrom (rule : Rule) (patternEnds : EndsInOperand rule.pattern)
    (replacementEnds : EndsInOperand rule.replacement) (bound : rule.SlotsBound)
    (previous : Option Token) (passed rest : List Token)
    (alike : AdmitAlike previous passed.getLast?) :
    rule.scan previous 0 rest = rule.replaceFrom (passed ++ rest) passed.length := by
  induction previous, rest using rule.scan_induct generalizing passed with
  | ended previous => rw [List.append_nil, rule.replaceFrom_end, scan]
  | passed previous token rest noRedex ih =>
      have noRedexThere : rule.redexAt? (passed ++ token :: rest) passed.length = none :=
        (rule.redexAt_append passed _).trans ((rule.redex_congr alike _).symm.trans noRedex)
      have within : passed.length < (passed ++ token :: rest).length := by
        rw [List.length_append, List.length_cons]
        omega
      have later := ih (passed ++ [token]) (by rw [List.getLast?_concat]; exact .refl _)
      rw [List.append_assoc, List.singleton_append, List.length_append,
        List.length_singleton] at later
      rw [rule.scan_of_no_redex _ token rest noRedex,
        rule.replaceFrom_of_no_redex _ _ within noRedexThere, later, List.getElem_of_append rfl rfl]
  | replaced previous rest found redex ih =>
      have redexThere : rule.redexAt? (passed ++ rest) passed.length = some found :=
        (rule.redexAt_append passed _).trans ((rule.redex_congr alike _).symm.trans redex)
      obtain ⟨matched, _⟩ := (rule.redex_eq_some_iff _ rest found).mp redex
      obtain ⟨taken, token, rfl, tokenEnds⟩ := patternEnds.last_taken matched
      obtain ⟨written, isLast, writtenEnds⟩ := replacementEnds.last_filled fun slot occurs =>
        Match.extendAll_binds _ found rule.pattern matched slot (bound slot occurs)
      have split : passed ++ (taken ++ token :: found.rest) =
          (passed ++ (taken ++ [token])) ++ found.rest := by
        simp only [List.append_assoc, List.cons_append, List.nil_append]
      have stop : (passed ++ (taken ++ token :: found.rest)).length - found.rest.length =
          (passed ++ (taken ++ [token])).length := by
        rw [split, List.length_append, Nat.add_sub_cancel]
      have later := ih (passed ++ (taken ++ [token])) (by
        rw [isLast, Option.some_or, ← List.append_assoc, List.getLast?_concat]
        exact (AdmitAlike.of_endsOperand writtenEnds).trans
          (AdmitAlike.of_endsOperand tokenEnds).symm)
      rw [rule.scan_of_redex _ _ found redex, rule.replaceFrom_of_redex _ _ found redexThere]
      dsimp only
      rw [later, stop, split]

end Rule

/-- Where both sides of a rule end in a slot, a truth value or `)`, as in the catalog, the scan
makes the replacements that are admitted by the neighbours which the tokens had before. -/
theorem apply_eq_replaceFrom :
    (∀ rule ∈ catalog, EndsInOperand rule.pattern ∧ EndsInOperand rule.replacement ∧
      rule.SlotsBound) ∧
    ∀ rule : Rule, EndsInOperand rule.pattern → EndsInOperand rule.replacement → rule.SlotsBound →
      ∀ tokens, rule.apply tokens = rule.replaceFrom tokens 0 := by
  refine ⟨by decide +kernel, ?_⟩
  intro rule patternEnds replacementEnds bound tokens
  exact rule.scan_eq_replaceFrom patternEnds replacementEnds bound none [] tokens (.refl none)

/-- `X & Y => Y & X` -/
def exchangeRule : Rule :=
  .mk .identity [.x, .conj, .y] [.y, .conj, .x]

theorem apply_eq_replaceFrom_exchanged :
    EndsInOperand exchangeRule.pattern ∧ EndsInOperand exchangeRule.replacement ∧
      exchangeRule.SlotsBound ∧
      exchangeRule.apply (tokenize "A & B C & A ~B & C") = ⟨tokenize "B & A A & C ~B & C", 2⟩ ∧
      exchangeRule.replaceFrom (tokenize "A & B C & A ~B & C") 0 =
        ⟨tokenize "B & A A & C ~B & C", 2⟩ := by
  have patternEnds : EndsInOperand exchangeRule.pattern := by decide
  have replacementEnds : EndsInOperand exchangeRule.replacement := by decide
  have bound : exchangeRule.SlotsBound := by decide
  have applied : exchangeRule.apply (tokenize "A & B C & A ~B & C") =
      ⟨tokenize "B & A A & C ~B & C", 2⟩ := by rfl
  have same := apply_eq_replaceFrom.2 exchangeRule patternEnds replacementEnds bound
    (tokenize "A & B C & A ~B & C")
  exact ⟨patternEnds, replacementEnds, bound, applied, same.symm.trans applied⟩

end BoolSimplify
