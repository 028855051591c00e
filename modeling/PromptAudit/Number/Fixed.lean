import PromptAudit.Number.Double
import PromptAudit.Text.Basic

namespace PromptAudit.Number

/-- One decimal of the exact value, a half to the even digit, never with an exponent. -/
def Double.oneDecimal (d : Double) : Text :=
  let sign := if d.negative && !d.isNaN then ['-'] else []
  if d.isNaN then "nan".toList
  else if d.magnitude = infinite then sign ++ "inf".toList
  else
    let tenths := roundHalfEven (d.units * 10) unit
    sign ++ Text.ofNat (tenths / 10) ++ ['.'] ++ Text.ofNat (tenths % 10)

end PromptAudit.Number
