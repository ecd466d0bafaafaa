import Workflow.Text.Category

/-!
Properties of letters: the characters that are alphabetic, those that have a case, and those that
do not count when the neighbours of a letter are asked for their case. Each property holds of some
general categories and of a few characters besides.
-/

namespace Workflow.Text

def lowercase : CharSet := categoryLl.union (.ofLines
  ["aa ba 2b0-b8 c0-c1 e0-e4 345 7a 10fc 1d2c-6a 78 9b-bf 2071 7f 90-9c 2170-7f 24d0-e9 2c7c-7d",
   "a69c-9d a770 f2-f4 f8-f9 ab5c-5f 69 10780 83-85 87-b0 b2-ba 1e030-6d"])

def uppercase : CharSet := categoryLu.union (.ofLines ["2160-6f 24b6-cf 1f130-49 50-69 70-89"])

def cased : CharSet := .unions [lowercase, uppercase, categoryLt]

/-- Characters with the property `Alphabetic`: beside letters and letter numbers, marks that stand
for vowels. -/
def alphabetic : CharSet := .unions [cased, categoryLm, categoryLo, categoryNl, .ofLines
  ["5b0-bd bf c1-c2 c4-c5 c7 610-1a 4b-57 59-5f 70 d6-dc e1-e4 e7-e8 ed 711 30-3f a6-b0 816-17",
   "1b-23 25-27 29-2c d4-df e3-e9 f0-903 3a-3b 3e-4c 4e-4f 55-57 62-63 81-83 be-c4 c7-c8 cb-cc d7",
   "e2-e3 a01-3 3e-42 47-48 4b-4c 51 70-71 75 81-83 be-c5 c7-c9 cb-cc e2-e3 fa-fc b01-3 3e-44",
   "47-48 4b-4c 56-57 62-63 82 be-c2 c6-c8 ca-cc d7 c00-4 3e-44 46-48 4a-4c 55-56 62-63 81-83",
   "be-c4 c6-c8 ca-cc d5-d6 e2-e3 f3 d00-3 3e-44 46-48 4a-4c 57 62-63 81-83 cf-d4 d6 d8-df f2-f3",
   "e31 34-3a 4d b1 b4-b9 bb-bc cd f71-83 8d-97 99-bc 102b-36 38 3b-3e 56-59 5e-60 62-64 67-6d",
   "71-74 82-8d 8f 9a-9d 1712-13 32-33 52-53 72-73 b6-c8 1885-86 a9 1920-2b 30-38 1a17-1b 55-5e",
   "61-74 bf-c0 cc-ce 1b00-4 35-43 80-82 a1-a9 ac-ad e7-f1 1c24-36 1de7-f4 2de0-ff a674-7b 9e-9f",
   "a802 b 23-27 80-81 b4-c3 c5 ff a926-2a 47-52 80-83 b4-bf e5 aa29-36 43 4c-4d 7b-7d b0 b2-b4",
   "b7-b8 be eb-ef f5 abe3-ea fb1e 10376-7a 10a01-3 5-6 c-f 10d24-27 10eab-ac 11000-2 38-45 73-74",
   "80-82 b0-b8 c2 11100-2 27-32 45-46 80-82 b3-bf ce-cf 1122c-34 37 3e 41 df-e8 11300-3 3e-44",
   "47-48 4b-4c 57 62-63 11435-41 43-45 b0-c1 115af-b5 b8-be dc-dd 11630-3e 40 ab-b5 1171d-2a",
   "1182c-38 11930-35 37-38 3b-3c 40 42 d1-d7 da-df e4 11a01-a 35-39 3b-3e 51-5b 8a-97 11c2f-36",
   "38-3e 92-a7 a9-b6 11d31-36 3a 3c-3d 3f-41 43 47 8a-8e 90-91 93-96 11ef3-f6 11f00-1 3 34-3a",
   "3e-40 16f4f 51-87 8f-92 f0-f1 1bc9e 1e000-6 8-18 1b-21 23-24 26-2a 8f 1e947"]]

def caseIgnorable : CharSet := .unions [categoryMn, categoryMe, categoryCf, categoryLm, categorySk,
  .ofLines ["27 2e 3a b7 387 55f f4 2018-19 24 27 fe13 52 55 ff07 e 1a"]]

end Workflow.Text
