/-
Rules as they are declared.

Reading a side of a declaration does not look for the end of the groups it opens.  It
need not, because a text whose brackets do not match is not read at all.  What is known
of a declaration that was accepted is collected here: its parts are read one behind the
other, and both sides are balanced.
-/

import BoolSimplify.Proofs.Balance
import BoolSimplify.RuleText.Declaration

namespace BoolSimplify.RuleText

/-! ### Sides -/

theorem consElement_eq_ok (element : Element) (side : Except DeclarationError Side)
    (elements : List Element) (rest : List Lexeme)
    (read : consElement element side = .ok (elements, rest)) :
    ∃ later, side = .ok (later, rest) ∧ elements = element :: later := by
  cases side with
  | error failure => cases read
  | ok side =>
      cases read
      exact ⟨side.1, rfl, rfl⟩

theorem elementOfWord_plain (word : String) (element : Element)
    (known : elementOfWord word = .ok element) : element.isParenthesis = false := by
  unfold elementOfWord at known
  split at known
  · cases known
  · split at known
    all_goals cases known
    all_goals rfl

/-- A side that is read with `depth` groups open closes them all. -/
theorem readSide_closes (depth : Nat) (lexemes rest : List Lexeme) (elements : List Element)
    (read : readSide depth lexemes = .ok (elements, rest))
    (matched : bracketsMatch (List.replicate depth .round) lexemes = true) :
    unmatched elements = ⟨depth, 0⟩ ∧ bracketsMatch [] rest = true := by
  fun_induction readSide depth lexemes generalizing elements with
  | case1 joint following =>
      cases read
      exact ⟨rfl, matched⟩
  | case2 depth =>
      cases read
      cases depth with
      | zero => exact ⟨rfl, rfl⟩
      | succ depth => cases matched
  | case3 depth following ih =>
      obtain ⟨later, readLater, rfl⟩ := consElement_eq_ok _ _ _ _ read
      rw [closes_opening]
      exact ih later readLater matched
  | case4 depth following ih =>
      obtain ⟨later, readLater, rfl⟩ := consElement_eq_ok _ _ _ _ read
      rw [closes_closing]
      exact ih later readLater matched
  | case5 depth joint following ih
  | case6 depth joint following ih
  | case7 depth joint following ih =>
      obtain ⟨later, readLater, rfl⟩ := consElement_eq_ok _ _ _ _ read
      rw [unmatched_plain rfl]
      exact ih later readLater matched
  | case8 depth word following element known ih =>
      obtain ⟨later, readLater, rfl⟩ := consElement_eq_ok _ _ _ _ read
      rw [unmatched_plain (elementOfWord_plain word element known)]
      exact ih later readLater matched
  | case9 => cases read
  | case10 => cases read

/-! ### Whole declarations -/

theorem readFamily_brackets (lexemes rest : List Lexeme) (family : String)
    (read : readFamily lexemes = .ok (family, rest))
    (matched : bracketsMatch [] lexemes = true) : bracketsMatch [] rest = true := by
  unfold readFamily at read
  split at read
  · cases read
  · split at read
    · cases read
    · split at read
      · cases read
        exact matched
      · cases read
  · cases read

theorem readArrow_brackets (lexemes rest : List Lexeme) (read : readArrow lexemes = .ok rest)
    (matched : bracketsMatch [] lexemes = true) : bracketsMatch [] rest = true := by
  unfold readArrow at read
  split at read
  · cases read
    exact matched
  · cases read

theorem bind_eq_ok {Failure First Second : Type} {step : Except Failure First}
    {next : First → Except Failure Second} {result : Second}
    (succeeded : (step >>= next) = .ok result) :
    ∃ value, step = .ok value ∧ next value = .ok result := by
  cases step with
  | error failure => cases succeeded
  | ok value => exact ⟨value, rfl, succeeded⟩

theorem readDeclaration_eq_ok (lexemes : List Lexeme) (declaration : Declaration)
    (accepted : readDeclaration lexemes = .ok declaration) :
    ∃ afterColon afterPattern afterArrow,
      readFamily lexemes = .ok (declaration.family, afterColon) ∧
      readSide 0 afterColon = .ok (declaration.pattern, afterPattern) ∧
      declaration.pattern ≠ [] ∧
      readArrow afterPattern = .ok afterArrow ∧
      readSide 0 afterArrow = .ok (declaration.replacement, []) ∧
      unbound? declaration.pattern declaration.replacement = none := by
  obtain ⟨⟨family, afterColon⟩, familyRead, accepted⟩ := bind_eq_ok accepted
  obtain ⟨⟨pattern, afterPattern⟩, patternRead, accepted⟩ := bind_eq_ok accepted
  dsimp only at accepted
  split at accepted
  · cases accepted
  · rename_i nonempty
    obtain ⟨afterArrow, arrowRead, accepted⟩ := bind_eq_ok accepted
    obtain ⟨⟨replacement, afterReplacement⟩, replacementRead, accepted⟩ := bind_eq_ok accepted
    dsimp only at accepted
    split at accepted
    · cases accepted
    · rename_i atEnd
      split at accepted
      · cases accepted
      · rename_i allBound
        cases accepted
        have nothingLeft : afterReplacement = [] := by simpa using atEnd
        subst nothingLeft
        exact ⟨afterColon, afterPattern, afterArrow, familyRead, patternRead,
          by simpa using nonempty, arrowRead, replacementRead, allBound⟩

theorem Declaration.balanced_of_parse (text : String) (declaration : Declaration)
    (accepted : Declaration.parse text = .ok declaration) :
    Balanced declaration.pattern ∧ Balanced declaration.replacement := by
  unfold Declaration.parse at accepted
  split at accepted
  · rename_i lexemes lexemesRead
    have matched := (Option.filter_eq_some_iff.mp lexemesRead).2
    obtain ⟨afterColon, afterPattern, afterArrow, familyRead, patternRead, _, arrowRead,
      replacementRead, _⟩ := readDeclaration_eq_ok lexemes declaration accepted
    have colonMatched := readFamily_brackets lexemes afterColon _ familyRead matched
    obtain ⟨patternBalanced, patternMatched⟩ :=
      readSide_closes 0 afterColon afterPattern _ patternRead colonMatched
    have arrowMatched := readArrow_brackets afterPattern afterArrow arrowRead patternMatched
    exact ⟨patternBalanced, (readSide_closes 0 afterArrow [] _ replacementRead arrowMatched).1⟩
  · cases accepted

end BoolSimplify.RuleText
