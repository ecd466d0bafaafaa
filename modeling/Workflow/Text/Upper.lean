import Workflow.Text.Case

/-!
Upper case of texts. Most letters have one capital; some, such as `ß`, have two or three
characters.
-/

namespace Workflow.Text

/-- Runs of letters that are not the lower case of their capital, or whose upper case has several
characters. -/
def upperRuns : List CaseRun := CaseRun.ofLines
  ["b5:39c df:53+53 131:049 49:2bc+4e 7f:053 c5:c4 c8:c7 cb:ca f0:04a+30c f2:f1 345:99",
   "90:99+308+301 b0:a5+308+301 c2:a3 d0:92 d1:98 d5:a6 d6:a0 f0:9a f1:a1 f5:95 587:35+552",
   "1c80:412 81:414 82:41e 83-84:421 85:422 86:42a 87:462 88:a64a 1e96:048+331 97:054+308",
   "98:057+30a 99:059+30a 9a:041+2be 9b:60 1f50:3a5+313 52:3a5+313+300 54:3a5+313+301",
   "56:3a5+313+342 80-87:8+399 88-8f:8+399 90-97:28+399 98-9f:28+399 a0-a7:68+399 a8-af:68+399",
   "b2:ba+399 b3:391+399 b4:386+399 b6:391+342 b7:391+342+399 bc:391+399 be:399 c2:ca+399",
   "c3:397+399 c4:389+399 c6:397+342 c7:397+342+399 cc:397+399 d2:399+308+300 d3:399+308+301",
   "d6:399+342 d7:399+308+342 e2:3a5+308+300 e3:3a5+308+301 e4:3a1+313 e6:3a5+342 e7:3a5+308+342",
   "f2:fa+399 f3:3a9+399 f4:38f+399 f6:3a9+342 f7:3a9+342+399 fc:3a9+399 fb00:046+46 1:046+49",
   "2:046+4c 3:046+46+49 4:046+46+4c 5:053+54 6:053+54 13:544+546 14:544+535 15:544+53b 16:54e+546",
   "17:544+53d"]

/-- The upper case of a letter; a character without one stays as it is. -/
def upperChar (c : Char) : List Char :=
  if c.toNat < 0x80 then [c.toUpper]
  else match upperRuns.findSome? fun r => (r.map? c.toNat).map (· :: r.more) with
    | some ns => ns.map Char.ofNat
    | none => match lowerRuns.findSome? (·.preimage? c.toNat) with
      | some n => [Char.ofNat n]
      | none => [c]

def upper (text : List Char) : List Char := text.flatMap upperChar

end Workflow.Text
