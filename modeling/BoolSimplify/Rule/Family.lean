/-
The families of identities that rules are instances of.
-/

namespace BoolSimplify

inductive Family where
  | idempotence
  | doubleNegation
  | complementAnd
  | complementOr
  | absorption
  | distribution
  | identity
  | constantFolding
  | parenthesisCleanup
  deriving DecidableEq, Repr

namespace Family

def all : List Family :=
  [idempotence, doubleNegation, complementAnd, complementOr, absorption, distribution,
   identity, constantFolding, parenthesisCleanup]

def name : Family → String
  | idempotence => "idempotence"
  | doubleNegation => "double_negation"
  | complementAnd => "complement_and"
  | complementOr => "complement_or"
  | absorption => "absorption"
  | distribution => "distribution"
  | identity => "identity"
  | constantFolding => "constant_folding"
  | parenthesisCleanup => "parenthesis_cleanup"

end Family

end BoolSimplify
