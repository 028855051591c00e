import PromptAudit.Text.Basic

namespace PromptAudit.Text

/-- Each script's zero; its other digits follow in order. -/
def zeros : List Nat := [
  48, 1632, 1776, 1984, 2406, 2534, 2662, 2790, 2918, 3046, 3174, 3302, 3430, 3558, 3664, 3792,
  3872, 4160, 4240, 6112, 6160, 6470, 6608, 6784, 6800, 6992, 7088, 7232, 7248, 42528, 43216, 43264,
  43472, 43504, 43600, 44016, 65296, 66720, 68912, 69734, 69872, 69942, 70096, 70384, 70736, 70864,
  71248, 71360, 71472, 71904, 72016, 72784, 73040, 73120, 73552, 92768, 92864, 93008, 120782,
  120792, 120802, 120812, 120822, 123200, 123632, 124144, 125264, 130032]

def digit? (c : Char) : Option Nat :=
  (zeros.find? fun start => start ≤ c.toNat && c.toNat ≤ start + 9).map (c.toNat - ·)

/-- Digits of every script in their ASCII form; other characters stay. -/
def plainDigits (t : Text) : Text :=
  t.map fun c => match digit? c with
    | some d => Char.ofNat (48 + d)
    | none => c

end PromptAudit.Text
