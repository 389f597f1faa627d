import ScriptHost.Decimal.Shortest

/-!
The text of floats. It is positional at every magnitude, shows the fewest digits that read back as
the same number, and has no decimal point for a whole number. Zero keeps its sign.
-/

namespace ScriptHost

open Float.Model in
/-- The text of a float: `NaN`, `inf`, `-inf`, or the shortest decimal that reads back. -/
def floatText (x : Float) : String :=
  match x.toModel.unpack with
  | .notANumber => "NaN"
  | .infinity sign => signed sign "inf"
  | .zero sign => signed sign "0"
  | .finite sign mantissa exponent _ => signed sign (Decimal.shortest mantissa exponent).toText
where
  signed : UnpackedFloat.Sign → String → String
    | .positive, text => text
    | .negative, text => "-" ++ text

end ScriptHost
