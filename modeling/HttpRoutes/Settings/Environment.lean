import HttpRoutes.Text.Digits

/-!
# Settings from the environment

The environment gives texts to names.  A text that a setting does not understand
is as good as none.

Names of choices are compared by their lower-case form.  The Kelvin sign is the
one character outside ASCII whose lower-case form lies within.
-/

namespace HttpRoutes

structure Environment where
  entries : List (String × String)

namespace Environment

def get? (env : Environment) (name : String) : Option String :=
  env.entries.lookup name

end Environment

def lowered (text : String) : String :=
  text.map fun c => if c = '\u212a' then 'k' else c.toLower

/-- The largest number of microseconds that can be set. -/
def maxMicroseconds : Nat := 18446744073709551615

def microseconds? (text : String) : Option Nat :=
  (Text.unsigned? text.toList).filter (· ≤ maxMicroseconds)

end HttpRoutes
