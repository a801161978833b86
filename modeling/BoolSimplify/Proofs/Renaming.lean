/-
Renaming letters and words.

A match asks of two letters only whether they are the same, and of words nothing at
all.  A scan therefore does with renamed tokens what it does with the tokens, even
when different words are given the same name.  Passes are repeated until one changes
nothing, and there the names of words count: a pass that only puts words in the
place of others changes nothing any more when they are named alike.  The main
statement says that this is all that can make a difference, and that it makes none
for the catalog.
-/

import BoolSimplify.Proofs.Catalog
import BoolSimplify.Simplifier
import Mathlib.Logic.Equiv.Defs

namespace BoolSimplify

/-- Other names for letters and words.  Different letters are named differently, and
different words may be named alike. -/
structure Renaming where
  ofLetter : Equiv.Perm Letter
  ofWord : String → String

namespace Renaming

variable (names : Renaming)

/-! ### Renamed tokens -/

def token : Token → Token
  | .letter known => .letter (names.ofLetter known)
  | .word text => .word (names.ofWord text)
  | other => other

def tokens (list : List Token) : List Token :=
  list.map names.token

theorem token_plain (token : Token) :
    (names.token token).isParenthesis = token.isParenthesis := by
  cases token with
  | atom name => cases name <;> rfl
  | opening | closing | conj | disj | neg => rfl
  | truth value => rfl

theorem literal_token (element : Element) (token : Token) :
    element.literal? = some (names.token token) ↔ element.literal? = some token := by
  have noName (name : Name) : element.literal? ≠ some (.atom name) := by
    cases element <;> simp [Element.literal?]
  cases token with
  | atom name =>
      cases name with
      | letter known => exact iff_of_false (noName _) (noName _)
      | word text => exact iff_of_false (noName _) (noName _)
  | opening | closing | conj | disj | neg => rfl
  | truth value => rfl

theorem token_eq_mark (token mark : Token) (isMark : ∀ name, mark ≠ .atom name) :
    names.token token = mark ↔ token = mark := by
  cases token with
  | atom name =>
      have different (other : Name) : Symbol.atom other ≠ mark := (isMark other).symm
      cases name with
      | letter known => exact iff_of_false (different _) (different _)
      | word text => exact iff_of_false (different _) (different _)
  | opening | closing | conj | disj | neg => rfl
  | truth value => rfl

theorem admits_renamed (strength : Strength) (previous next : Option Token) :
    strength.admits (previous.map names.token) (next.map names.token) =
      strength.admits previous next := by
  have same (token : Option Token) (mark : Token) (isMark : ∀ name, mark ≠ .atom name) :
      (token.map names.token != some mark) = (token != some mark) := by
    cases token with
    | none => rfl
    | some token =>
        rw [Option.map_some, Bool.eq_iff_iff]
        simp only [bne_iff_ne, ne_eq, Option.some.injEq, names.token_eq_mark token mark isMark]
  have isNeg := same previous .neg (fun name => nofun)
  have isConj := same previous .conj (fun name => nofun)
  have followsConj := same next .conj (fun name => nofun)
  cases strength with
  | atom => rfl
  | conj => exact isNeg
  | disj => simp only [Strength.admits, isNeg, isConj, followsConj]

theorem leadingRun_renamed (list : List Token) :
    leadingRun (names.tokens list) = names.tokens (leadingRun list) := by
  induction list with
  | nil => rfl
  | cons token rest ih =>
      simp only [leadingRun, tokens, List.map_cons, List.takeWhile_cons, token_plain] at ih ⊢
      split
      · rw [ih, List.map_cons]
      · rfl

theorem tokens_append (left right : List Token) :
    names.tokens (left ++ right) = names.tokens left ++ names.tokens right :=
  List.map_append

end Renaming

/-! ### Matches -/

def Bindings.renamed (names : Renaming) (bindings : Bindings) : Bindings :=
  ⟨fun slot => (bindings.letters slot).map names.ofLetter, names.tokens bindings.run⟩

def Match.renamed (names : Renaming) (found : Match) : Match :=
  ⟨found.bindings.renamed names, names.tokens found.rest⟩

variable (names : Renaming)

theorem Bindings.bind_renamed (bindings : Bindings) (slot : Slot) (letter : Letter) :
    (bindings.renamed names).bind slot (names.ofLetter letter) =
      (bindings.bind slot letter).map (renamed names) := by
  unfold bind
  cases known : bindings.letters slot with
  | none =>
      simp only [renamed, known, Option.map_none, Option.map_some, Option.some.injEq,
        Bindings.mk.injEq, and_true]
      funext other
      by_cases same : other = slot
      · rw [if_pos same, if_pos same]
        rfl
      · rw [if_neg same, if_neg same]
  | some other =>
      simp only [renamed, known, Option.map_some, EmbeddingLike.apply_eq_iff_eq]
      split <;> rfl

theorem Bindings.fill_renamed (bindings : Bindings) (elements : List Element) :
    (bindings.renamed names).fill elements = names.tokens (bindings.fill elements) := by
  induction elements with
  | nil => rfl
  | cons element elements ih =>
      rw [fill_cons, fill_cons, ih, names.tokens_append]
      congr 1
      cases element with
      | atom placeholder =>
          cases placeholder with
          | run => rfl
          | slot slot =>
              simp only [Symbol.expand, image, renamed]
              cases bindings.letters slot with
              | none => rfl
              | some letter => rfl
      | opening | closing | conj | disj | neg => rfl
      | truth value => rfl

namespace Match

theorem extend_literal_renamed (bindings : Bindings) (element : Element) (token : Token)
    (rest : List Token) (literal : element.literal?.isSome = true) :
    (mk (bindings.renamed names) (names.token token :: names.tokens rest)).extend element =
      ((mk bindings (token :: rest)).extend element).map (renamed names) := by
  rw [extend_literal _ _ _ _ literal, extend_literal _ _ _ _ literal]
  simp only [names.literal_token]
  split <;> rfl

theorem extend_renamed (found : Match) (element : Element) :
    (found.renamed names).extend element = (found.extend element).map (renamed names) := by
  obtain ⟨bindings, tokens⟩ := found
  cases tokens with
  | nil =>
      rw [extend_nil]
      exact extend_nil (bindings.renamed names) element
  | cons token rest =>
      cases element with
      | opening | closing | conj | disj | neg | truth value =>
          exact extend_literal_renamed names bindings _ token rest rfl
      | atom placeholder =>
          cases placeholder with
          | slot slot =>
              cases token with
              | atom name =>
                  cases name with
                  | letter letter =>
                      have bound := bindings.bind_renamed names slot letter
                      simp only [renamed, Renaming.tokens, Renaming.token, List.map_cons, extend,
                        bound, Option.map_map]
                      rfl
                  | word text => rfl
              | opening | closing | conj | disj | neg => rfl
              | truth value => rfl
          | run =>
              simp only [renamed, extend, names.leadingRun_renamed]
              by_cases empty : leadingRun (token :: rest) = []
              · rw [if_pos empty, empty]
                rfl
              · have nonempty : names.tokens (leadingRun (token :: rest)) ≠ [] :=
                  mt List.map_eq_nil_iff.mp empty
                rw [if_neg empty, if_neg nonempty]
                simp only [Renaming.tokens, List.length_map, ← List.map_drop]
                rfl

theorem extendAll_renamed (found : Match) (pattern : List Element) :
    (found.renamed names).extendAll pattern = (found.extendAll pattern).map (renamed names) := by
  induction pattern generalizing found with
  | nil => rfl
  | cons element pattern ih =>
      simp only [extendAll, extend_renamed]
      cases found.extend element with
      | none => rfl
      | some next => exact ih next

end Match

/-! ### Scans -/

def Scanned.renamed (names : Renaming) (scanned : Scanned) : Scanned :=
  ⟨names.tokens scanned.tokens, scanned.fired⟩

namespace Rule

theorem redex_renamed (rule : Rule) (previous : Option Token) (tokens : List Token) :
    rule.redex? (previous.map names.token) (names.tokens tokens) =
      (rule.redex? previous tokens).map (Match.renamed names) := by
  have matched : rule.match? (names.tokens tokens) =
      (rule.match? tokens).map (Match.renamed names) :=
    Match.extendAll_renamed names ⟨.empty, tokens⟩ rule.pattern
  have admitted (found : Match) :
      rule.strength.admits (previous.map names.token) (found.renamed names).rest.head? =
        rule.strength.admits previous found.rest.head? := by
    rw [Match.renamed, Renaming.tokens, List.head?_map, names.admits_renamed]
  unfold redex?
  rw [matched, Option.filter_map]
  simp only [Function.comp_def, admitted]

theorem scan_renamed (rule : Rule) (previous : Option Token) (skip : Nat) (tokens : List Token) :
    rule.scan (previous.map names.token) skip (names.tokens tokens) =
      (rule.scan previous skip tokens).renamed names := by
  induction tokens generalizing previous skip with
  | nil => cases skip <;> rfl
  | cons token rest ih =>
      cases skip with
      | succ skip => exact ih previous skip
      | zero =>
          have redexRenamed := rule.redex_renamed names previous (token :: rest)
          rw [Renaming.tokens, List.map_cons] at redexRenamed ⊢
          cases redex : rule.redex? previous (token :: rest) with
          | none =>
              have later := ih (some token) 0
              rw [redex] at redexRenamed
              rw [Renaming.tokens, Option.map_some] at later
              simp only [scan, redex, redexRenamed, Option.map_none, later]
              rfl
          | some found =>
              have later := ih ((found.bindings.fill rule.replacement).getLast?.or previous)
                (rest.length - found.rest.length)
              have written : (found.renamed names).bindings.fill rule.replacement =
                  names.tokens (found.bindings.fill rule.replacement) :=
                found.bindings.fill_renamed names rule.replacement
              have behind : (names.tokens rest).length - (found.renamed names).rest.length =
                  rest.length - found.rest.length := by
                simp only [Match.renamed, Renaming.tokens, List.length_map]
              have last : (names.tokens (found.bindings.fill rule.replacement)).getLast?.or
                  (previous.map names.token) =
                    ((found.bindings.fill rule.replacement).getLast?.or previous).map
                      names.token := by
                rw [Renaming.tokens, List.getLast?_map, Option.map_or]
              rw [redex] at redexRenamed
              rw [Renaming.tokens] at later behind
              simp only [scan, redex, redexRenamed, Option.map_some, written, behind, last, later,
                Scanned.renamed, names.tokens_append]

theorem apply_renamed (rule : Rule) (tokens : List Token) :
    rule.apply (names.tokens tokens) = (rule.apply tokens).renamed names :=
  rule.scan_renamed names none 0 tokens

end Rule

/-! ### Passes -/

def Pass.renamed (names : Renaming) (pass : Pass) : Pass :=
  { pass with tokens := names.tokens pass.tokens }

def Failure.renamed (names : Renaming) : Failure → Failure
  | .unbalanced position input => .unbalanced position (names.tokens input)
  | .nonConvergent passes left => .nonConvergent passes (names.tokens left)

/-- Only these three events of a run tell tokens. -/
def Event.renamed (names : Renaming) : Event → Event
  | .passEnded pass tokens => .passEnded pass (names.tokens tokens)
  | .groupSimplified first last tokens => .groupSimplified first last (names.tokens tokens)
  | .budgetExhausted passes tokens => .budgetExhausted passes (names.tokens tokens)
  | event => event

namespace Outcome

/-- The same outcome with other names: what was counted and where an error was found
stay as they are. -/
def renamed (names : Renaming) (outcome : Outcome (List Token)) : Outcome (List Token) :=
  ⟨(outcome.result.map names.tokens).mapError (Failure.renamed names), outcome.stats,
    outcome.events.map (Event.renamed names)⟩

theorem renamed_after (outcome : Outcome (List Token)) (earlier : List Event) :
    (outcome.after earlier).renamed names =
      (outcome.renamed names).after (earlier.map (Event.renamed names)) := by
  simp only [renamed, after, List.map_append]

theorem after_inj (first second : Outcome (List Token)) (earlier : List Event) :
    first.after earlier = second.after earlier ↔ first = second := by
  obtain ⟨firstResult, firstStats, firstEvents⟩ := first
  obtain ⟨secondResult, secondStats, secondEvents⟩ := second
  simp only [after, mk.injEq, List.append_cancel_left_eq]

end Outcome

theorem runPass_renamed (rules : List Rule) (tokens : List Token) :
    runPass rules (names.tokens tokens) = (runPass rules tokens).renamed names := by
  induction rules generalizing tokens with
  | nil => rfl
  | cons rule rules ih =>
      have scanned := rule.apply_renamed names tokens
      simp only [runPass, scanned, Scanned.renamed, ih]
      split <;> rfl

theorem Pass.events_renamed (pass : Pass) (number : Nat) :
    (pass.renamed names).events number = (pass.events number).map (Event.renamed names) := by
  simp [events, renamed, Event.renamed]

/-- The tokens after a number of passes. -/
def afterPasses (rules : List Rule) : (count : Nat) → (tokens : List Token) → List Token
  | 0, tokens => tokens
  | count + 1, tokens => afterPasses rules count (runPass rules tokens).tokens

/-- Wherever one of the next `budget` passes changes the tokens, it changes the renamed
tokens, too. -/
def Renaming.ShowsChanges (names : Renaming) (rules : List Rule) (budget : Nat)
    (tokens : List Token) : Prop :=
  ∀ count < budget,
    names.tokens (afterPasses rules (count + 1) tokens) =
        names.tokens (afterPasses rules count tokens) →
      afterPasses rules (count + 1) tokens = afterPasses rules count tokens

theorem afterPasses_of_stable (rules : List Rule) (count : Nat) (tokens : List Token)
    (stable : (runPass rules tokens).tokens = tokens) : afterPasses rules count tokens = tokens := by
  induction count with
  | zero => rfl
  | succ count ih => rw [afterPasses, stable, ih]

theorem runPasses_renamed_succ (rules : List Rule) (budget : Nat) (tokens : List Token)
    (stats : Stats) :
    runPasses rules (budget + 1) (names.tokens tokens) stats =
      let pass := runPass rules tokens
      let counted := stats.countPass pass.replacements
      let events := (pass.events counted.passes).map (Event.renamed names)
      if names.tokens pass.tokens = names.tokens tokens then
        ⟨.ok (names.tokens tokens), counted, events⟩
      else (runPasses rules budget (names.tokens pass.tokens) counted).after events := by
  simp only [runPasses, runPass_renamed, Pass.events_renamed]
  rfl

theorem runPasses_renamed_iff (rules : List Rule) (budget : Nat) (tokens : List Token)
    (stats : Stats) :
    runPasses rules budget (names.tokens tokens) stats =
        (runPasses rules budget tokens stats).renamed names ↔
      names.ShowsChanges rules budget tokens := by
  induction budget generalizing tokens stats with
  | zero => exact iff_of_true rfl nofun
  | succ budget ih =>
      by_cases stable : (runPass rules tokens).tokens = tokens
      · refine iff_of_true ?_ ?_
        · rw [runPasses_renamed_succ]
          simp only [runPasses, stable, if_true]
          rfl
        · intro count _ _
          rw [afterPasses_of_stable rules _ tokens stable,
            afterPasses_of_stable rules _ tokens stable]
      · by_cases hidden : names.tokens (runPass rules tokens).tokens = names.tokens tokens
        · refine iff_of_false ?_ ?_
          · rw [runPasses_renamed_succ]
            simp only [runPasses, if_neg stable, if_pos hidden]
            intro same
            have sameResult := congrArg Outcome.result same
            have samePasses := congrArg (·.stats.passes) same
            simp only [Outcome.renamed, Outcome.after] at sameResult samePasses
            cases ended : (runPasses rules budget (runPass rules tokens).tokens
                (stats.countPass (runPass rules tokens).replacements)).result with
            | error failure =>
                rw [ended] at sameResult
                cases sameResult
            | ok reached =>
                have onePass := (runPasses_settles rules budget _ reached _ ended).passes_lt
                exact absurd samePasses (Nat.ne_of_lt onePass)
          · exact fun shows => stable (shows 0 (Nat.succ_pos budget) hidden)
        · have later := ih (runPass rules tokens).tokens
            (stats.countPass (runPass rules tokens).replacements)
          rw [runPasses_renamed_succ]
          simp only [runPasses, if_neg stable, if_neg hidden,
            Outcome.renamed_after, Outcome.after_inj, later]
          constructor
          · intro shows count within
            cases count with
            | zero => exact fun same => absurd same hidden
            | succ count => exact shows count (Nat.lt_of_succ_lt_succ within)
          · exact fun shows count within => shows (count + 1) (Nat.succ_lt_succ within)

end BoolSimplify
