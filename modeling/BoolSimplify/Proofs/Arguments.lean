/-
What arguments are read as.

Every number of passes that fits into 64 bits can be asked for, and every text can be given as
an expression behind `--`, also one that looks like an option.
-/

import BoolSimplify.CommandLine.Options

namespace BoolSimplify.CommandLine

/-! ### Numbers -/

theorem readCount_digits (text : String) (nonempty : text.toList ≠ [])
    (digits : ∀ char ∈ text.toList, char.isDigit = true)
    (small : Nat.ofDigitChars 10 text.toList 0 < UInt64.size) :
    readCount text = some (Nat.ofDigitChars 10 text.toList 0) := by
  have accepted : (text.toList.isEmpty ||
      !text.toList.all fun char => '0' ≤ char && char ≤ '9') = false := by
    rw [List.isEmpty_eq_false_iff.mpr nonempty, Bool.false_or, Bool.not_eq_false',
      List.all_eq_true]
    intro char member
    have isDigit := digits char member
    rw [Char.isDigit, Bool.and_eq_true] at isDigit
    rwa [Bool.and_eq_true]
  unfold readCount
  extract_lets spelled value
  have unsigned : spelled = text.toList := by
    unfold spelled
    split
    · rename_i rest signed
      have signIsDigit := digits '+' (by rw [signed]; exact List.mem_cons_self)
      cases signIsDigit
    · rfl
  have valued : value = Nat.ofDigitChars 10 text.toList 0 := by
    rw [← unsigned]
    rfl
  rw [unsigned, accepted, valued]
  exact if_pos small

theorem toList_toString (count : Nat) : (toString count).toList = Nat.toDigits 10 count := by
  rw [Nat.toString_eq_repr, Nat.toList_repr]

theorem isDigit_toString (count : Nat) :
    ∀ char ∈ (toString count).toList, char.isDigit = true := by
  rw [toList_toString]
  intro char member
  exact Nat.isDigit_of_mem_toDigits (by omega) (by omega) member

theorem readCount_toString (count : Nat) (small : count < UInt64.size) :
    readCount (toString count) = some count := by
  have value : Nat.ofDigitChars 10 (toString count).toList 0 = count := by
    rw [toList_toString]
    exact Nat.ofDigitChars_ten_toDigits
  have read := readCount_digits (toString count)
  rw [value] at read
  apply read _ (isDigit_toString count) small
  rw [toList_toString]
  exact Nat.toDigits_ne_nil

/-! ### Arguments -/

theorem readArguments_maxPasses (options : Options) (notGiven : options.maxPasses = none)
    (count : Nat) (small : count < UInt64.size) (rest : List String) :
    readArguments (options, none) ("-p" :: toString count :: rest) =
      readArguments ({ options with maxPasses := some count }, none) rest := by
  have named : readArguments (options, none) ("-p" :: toString count :: rest) =
      readArguments (options, some .maxPasses) (toString count :: rest) := rfl
  have given : options.setValue .maxPasses (toString count) =
      .ok { options with maxPasses := some count } := by
    rw [Options.setValue, notGiven, readCount_toString count small]
  rw [named, readArguments]
  split
  · rename_i dashed
    have dashIsDigit := isDigit_toString count '-' (by rw [dashed]; exact List.mem_cons_self)
    cases dashIsDigit
  · rw [given]

theorem read_maxPasses (count : Nat) (small : count < UInt64.size) :
    read ["-p", toString count] = .ok { Options.initial with maxPasses := some count } := by
  rw [read, readArguments_maxPasses .initial rfl count small]
  rfl

theorem Options.foldl_addExpression (options : Options) (expressions : List String) :
    expressions.foldl Options.addExpression options =
      { options with expressions := options.expressions ++ expressions } := by
  induction expressions generalizing options with
  | nil =>
      rw [List.append_nil]
      rfl
  | cons expression expressions ih =>
      rw [List.foldl_cons, ih, addExpression, List.append_assoc]
      rfl

/-- Each argument but `--` is read without regard to those behind it. -/
theorem readArguments_cons (progress : Progress) (argument : String) (other : argument ≠ "--") :
    ∃ read : Except Stop Progress, ∀ rest,
      readArguments progress (argument :: rest) =
        read.bind fun progress => readArguments progress rest := by
  obtain ⟨options, pending⟩ := progress
  cases pending with
  | none =>
      simp only [readArguments]
      split
      · rename_i separator
        exact absurd (String.toList_injective separator) other
      · rename_i text _ _
        refine ⟨readLong options text, fun rest => ?_⟩
        cases readLong options text with
        | ok progress => rfl
        | error stop => rfl
      · rename_i name others _ _ _
        refine ⟨readShort options (name :: others), fun rest => ?_⟩
        cases readShort options (name :: others) with
        | ok progress => rfl
        | error stop => rfl
      · exact ⟨.ok (options.addExpression argument, none), fun rest => rfl⟩
  | some option =>
      simp only [readArguments]
      split
      · exact ⟨.error .misuse, fun rest => rfl⟩
      · refine ⟨(options.setValue option argument).map fun options => (options, none),
          fun rest => ?_⟩
        cases options.setValue option argument with
        | ok options => rfl
        | error stop => rfl

theorem readArguments_append (progress : Progress) (arguments : List String) (options : Options)
    (accepted : readArguments progress arguments = .ok options) (noSeparator : "--" ∉ arguments)
    (expressions : List String) :
    readArguments progress (arguments ++ "--" :: expressions) =
      .ok { options with expressions := options.expressions ++ expressions } := by
  induction arguments generalizing progress with
  | nil =>
      obtain ⟨options, pending⟩ := progress
      cases pending with
      | none =>
          cases accepted
          exact congrArg _ (options.foldl_addExpression expressions)
      | some option => cases accepted
  | cons argument arguments ih =>
      rw [List.mem_cons, not_or] at noSeparator
      obtain ⟨other, later⟩ := noSeparator
      obtain ⟨read, step⟩ := readArguments_cons progress argument (Ne.symm other)
      rw [List.cons_append, step]
      rw [step] at accepted
      cases read with
      | error stop => cases accepted
      | ok progress => exact ih progress accepted later

theorem read_append (arguments : List String) (options : Options)
    (accepted : read arguments = .ok options) (noFile : options.file = none)
    (noSeparator : "--" ∉ arguments) (expressions : List String) :
    read (arguments ++ "--" :: expressions) =
      .ok { options with expressions := options.expressions ++ expressions } := by
  have readAll : readArguments (.initial, none) arguments = .ok options := by
    rw [read] at accepted
    split at accepted
    · split at accepted
      · cases accepted
      · rename_i found _
        rw [found, ← accepted]
    · cases accepted
  rw [read, readArguments_append _ arguments options readAll noSeparator, noFile]
  rfl

end BoolSimplify.CommandLine
