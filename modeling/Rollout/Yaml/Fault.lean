/-! Why a text is not an acceptable YAML document. -/

set_option autoImplicit false

namespace Rollout.Yaml

inductive Fault where
  /-- A character that no YAML text may hold. -/
  | badCharacter
  /-- Text that begins no token, or a token cut short. -/
  | badToken
  /-- A token where the grammar has no place for it. -/
  | misplacedToken
  | badDirective
  | unknownTagHandle
  | unknownAnchor
  | severalDocuments
  /-- Collections inside each other beyond the limit. -/
  | tooDeep
  /-- More references followed than the limit allows. -/
  | tooManyReferences
  | duplicateKey
  | emptyTag
  /-- A scalar that its own tag does not admit. -/
  | tagMismatch
  /-- An integer too large to be kept. -/
  | integerRange
  /-- A value of another kind than the one asked for. -/
  | wrongKind
  | missingField
  deriving DecidableEq, Repr

end Rollout.Yaml
