import TenantOperator.Naming
import TenantOperator.Resource.Schema

/-! Selectors of objects by their labels. -/
namespace TenantOperator
open Json (Record Decoder)

structure LabelSelector where
  matchLabels : Option Labels := none
  others : Details := []
  deriving DecidableEq

namespace LabelSelector

def encode (s : LabelSelector) : Json :=
  .ofFields (("matchLabels", s.matchLabels.map .ofTexts) :: s.others.fields)

def requirement : Schema :=
  .record "LabelSelectorRequirement" (must .text ["key", "operator"] ++ may .texts ["values"])

def decode : Decoder LabelSelector :=
  Record.ofObject "LabelSelector" ((fun matchLabels others => { matchLabels, others })
    <$> .optional "matchLabels" Decoder.texts
    <*> Details.record (may (.list requirement) ["matchExpressions"]))

def schema : Schema := .of encode decode {}

end LabelSelector
end TenantOperator
