import Workflow.Text.Letters

/-!
Case of letters: lower case, and simple case folding, under which letters that differ only in case
have the same image. Both map runs of characters, in each of which the images follow each other as
the characters do.
-/

namespace Workflow.Text

/-- A run of characters whose images start at `image` and keep their distances. Some characters may
follow each image. -/
structure CaseRun extends CharSet.Run where
  image : Nat
  more : List Nat

/-- The image of a code point in a run that holds it. -/
def CaseRun.map? (r : CaseRun) (n : Nat) : Option Nat :=
  if r.first ≤ n ∧ n ≤ r.last ∧ (n - r.first) % r.step = 0 then some (r.image + (n - r.first)) else none

/-- The code points of a run with a given image. -/
def CaseRun.preimage? (r : CaseRun) (n : Nat) : Option Nat :=
  if r.image ≤ n ∧ n - r.image ≤ r.last - r.first ∧ (n - r.image) % r.step = 0 then
    some (r.first + (n - r.image))
  else none

/-- The runs of words behind a number, such as `41-5a:61` with an image, or `df:53+53` with an image and a
character that follows it. -/
def CaseRun.after (before : Nat) : List (List Char) → List CaseRun
  | [] => []
  | word :: words =>
    let run := CharSet.runAfter before (word.takeWhile (· ≠ ':'))
    let images := CharSet.wordsOf '+' ((word.dropWhile (· ≠ ':')).drop 1)
    ⟨run, CharSet.hexAfter run.last (images.headD []), images.tail.map CharSet.hexValue⟩ :: CaseRun.after run.last words

def CaseRun.ofLines (lines : List String) : List CaseRun :=
  CaseRun.after 0 (lines.flatMap fun line => CharSet.wordsOf ' ' line.toList)

def lowerRuns : List CaseRun := CaseRun.ofLines
  ["41-5a:61 c0-d6:e0 d8-de:f8 100/2e:1 32/36:33 39/47:3a 4a/76:4b 78:0ff 79/7d:7a 81:253 82/84:83",
   "86:254 87:88 89-8a:256 8b:8c 8e:dd 8f:259 90:25b 91:92 93:260 94:263 96:269 97:268 98:99",
   "9c:26f 9d:272 9f:275 a0/a4:a1 a6:280 a7:a8 a9:283 ac:ad ae:288 af:b0 b1-b2:28a b3/b5:b4 b7:292",
   "b8:b9 bc:bd c4:c6 c5:c6 c7:c9 c8:c9 ca:cc cb/db:cc de/ee:df f1:f3 f2/f4:f3 f6:95 f7:bf",
   "f8/21e:1f9 20:19e 22/32:23 3a:2c65 3b:3c 3d:19a 3e:2c66 41:42 43:180 44:89 45:8c 46/4e:47",
   "370/72:71 76:77 7f:f3 86:ac 88-8a:ad 8c:cc 8e-8f:cd 91-a1:b1 a3-ab:c3 cf:d7 d8/ee:d9 f4:b8",
   "f7:f8 f9:f2 fa:fb fd-ff:7b 400-f:50 10-2f:30 60/80:61 8a/be:8b c0:cf c1/cd:c2 d0/52e:4d1",
   "31-56:61 10a0-c5:2d00 c7:2d27 cd:2d2d 13a0-ef:ab70 f0-f5:f8 1c90-ba:10d0 bd-bf:10fd 1e00/94:1",
   "9e:0df a0/fe:a1 1f08-f:0 18-1d:10 28-2f:20 38-3f:30 48-4d:40 59/5f:51 68-6f:60 88-8f:80",
   "98-9f:90 a8-af:a0 b8-b9:b0 ba-bb:70 bc:b3 c8-cb:72 cc:c3 d8-d9:d0 da-db:76 e8-e9:e0 ea-eb:7a",
   "ec:e5 f8-f9:78 fa-fb:7c fc:f3 2126:3c9 2a:06b 2b:0e5 32:4e 60-6f:70 83:84 24b6-cf:d0",
   "2c00-2f:30 60:61 62:26b 63:1d7d 64:27d 67/6b:68 6d:251 6e:271 6f:250 70:252 72:73 75:76",
   "7e-7f:23f 80/e2:81 eb/ed:ec f2:f3 a640/6c:41 80/9a:81 a722/2e:23 32/6e:33 79/7b:7a 7d:1d79",
   "7e/86:7f 8b:8c 8d:265 90/92:91 96/a8:97 aa:266 ab:25c ac:261 ad:26c ae:26a b0:29e b1:287",
   "b2:29d b3:ab53 b4/c2:b5 c4:94 c5:282 c6:1d8e c7/c9:c8 d0:d1 d6/d8:d7 f5:f6 ff21-3a:41",
   "10400-27:28 b0-d3:d8 10570-7a:97 7c-8a:a3 8c-92:b3 94-95:bb 10c80-b2:c0 118a0-bf:c0",
   "16e40-5f:60 1e900-21:22"]

/-- Runs of letters with another one that stands for all that differ from them only in case: in most cases their
lower case. -/
def foldRuns : List CaseRun :=
  lowerRuns.filter (fun r => r.first / 0x100 ≠ 0x13) ++ CaseRun.ofLines
    ["b5:3bc 17f:073 345:b9 c2:c3 d0:b2 d1:b8 d5:c6 d6:c0 f0:ba f1:c1 f5:b5 13f8-fd:f0 1c80:432",
     "81:434 82:43e 83-84:441 85:442 86:44a 87:463 88:a64b 1e9b:61 1fbe:3b9 ab70-bf:13a0"]

/-- The lower case of a letter. That of the dotted capital I has two characters. -/
def lowerChar (c : Char) : List Char :=
  if c.toNat = 0x130 then ['i', Char.ofNat 0x307]
  else if c.toNat < 0x80 then [c.toLower]
  else match lowerRuns.findSome? (·.map? c.toNat) with
    | some n => [Char.ofNat n]
    | none => [c]

/-- The character that stands for all those that differ from a character only in case. -/
def foldChar (c : Char) : Char :=
  if c.toNat < 0x80 then c.toLower
  else match foldRuns.findSome? (·.map? c.toNat) with
    | some n => Char.ofNat n
    | none => c

def caseOrbit (c : Char) : List Char :=
  let folded := foldChar c
  folded :: foldRuns.filterMap fun r => (r.preimage? folded.toNat).map Char.ofNat

def nextIsCased : List Char → Bool
  | [] => false
  | c :: rest => if caseIgnorable.contains c then nextIsCased rest else cased.contains c

/-- Lower case of a text, behind some characters in reverse. A capital sigma at the end of a word becomes a
final sigma. -/
def lowerFrom (before : List Char) : List Char → List Char
  | [] => []
  | c :: rest =>
    let lower :=
      if c = 'Σ' then [if nextIsCased before && !nextIsCased rest then 'ς' else 'σ']
      else lowerChar c
    lower ++ lowerFrom (c :: before) rest

def lower (text : List Char) : List Char := lowerFrom [] text

end Workflow.Text
