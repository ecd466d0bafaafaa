import Workflow.Text.CharSet

/-!
General categories of characters. Every code point has exactly one of them.
-/

namespace Workflow.Text

/-- Category `Lu`: uppercase letter. -/
def categoryLu : CharSet := .ofLines
  ["41-5a c0-d6 d8-de 100/36 39/47 4a/76 78-79 7b 7d 81-82 84 86-87 89-8b 8e-91 93-94 96-98 9c-9d",
   "9f-a0 a2 a4 a6-a7 a9 ac ae-af b1-b3 b5 b7-b8 bc c4 c7 ca cd/db de/ee f1 f4 f6-f8 fa/232 3a-3b",
   "3d-3e 41 43-46 48/4e 370 72 76 7f 86 88-8a 8c 8e-8f 91-a1 a3-ab cf d2-d4 d8/ee f4 f7 f9-fa",
   "fd-42f 60/80 8a/be c0-c1 c3/cd d0/52e 31-56 10a0-c5 c7 cd 13a0-f5 1c90-ba bd-bf 1e00/94 9e/fe",
   "1f08-f 18-1d 28-2f 38-3f 48-4d 59/5f 68-6f b8-bb c8-cb d8-db e8-ec f8-fb 2102 7 b-d 10-12 15",
   "19-1d 24/28 2a-2d 30-33 3e-3f 45 83 2c00-2f 60 62-64 67/6b 6d-70 72 75 7e-80 82/e2 eb ed f2",
   "a640/6c 80/9a a722/2e 32/6e 79 7b 7d-7e 80/86 8b 8d 90 92 96/a8 aa-ae b0-b4 b6/c2 c4-c7 c9 d0",
   "d6 d8 f5 ff21-3a 10400-27 b0-d3 10570-7a 7c-8a 8c-92 94-95 10c80-b2 118a0-bf 16e40-5f 1d400-19",
   "34-4d 68-81 9c 9e-9f a2 a5-a6 a9-ac ae-b5 d0-e9 1d504-5 7-a d-14 16-1c 38-39 3b-3e 40-44 46",
   "4a-50 6c-85 a0-b9 d4-ed 1d608-21 3c-55 70-89 a8-c0 e2-fa 1d71c-34 56-6e 90-a8 ca 1e900-21"]

/-- Category `Ll`: lowercase letter. -/
def categoryLl : CharSet := .ofLines
  ["61-7a b5 df-f6 f8-ff 101/35 37-38 3a/46 48-49 4b/77 7a 7c 7e-80 83 85 88 8c-8d 92 95 99-9b 9e",
   "a1/a5 a8 aa-ab ad b0 b4 b6 b9-ba bd-bf c6 c9 cc/da dc-dd df/ed ef-f0 f3 f5 f9/231 33-39 3c",
   "3f-40 42 47/4d 4f-93 95-af 371 73 77 7b-7d 90 ac-ce d0-d1 d5-d7 d9/ed ef-f3 f5 f8 fb-fc 430-5f",
   "61/81 8b/bf c2/cc ce-cf d1/52f 60-88 10d0-fa fd-ff 13f8-fd 1c80-88 1d00-2b 6b-77 79-9a 1e01/93",
   "95-9d 9f/fd ff-1f07 10-15 20-27 30-37 40-45 50-57 60-67 70-7d 80-87 90-97 a0-a7 b0-b4 b6-b7 be",
   "c2-c4 c6-c7 d0-d3 d6-d7 e0-e7 f2-f4 f6-f7 210a e-f 13 2f 34 39 3c-3d 46-49 4e 84 2c30-5f 61",
   "65-66 68/6c 71 73-74 76-7b 81/e1 e3-e4 ec ee f3 2d00-25 27 2d a641/6d 81/9b a723/2d 2f-31",
   "33/6f 71-78 7a 7c 7f/87 8c 8e 91 93-95 97/a9 af b5/c3 c8 ca d1/d9 f6 fa ab30-5a 60-68 70-bf",
   "fb00-6 13-17 ff41-5a 10428-4f d8-fb 10597-a1 a3-b1 b3-b9 bb-bc 10cc0-f2 118c0-df 16e60-7f",
   "1d41a-33 4e-54 56-67 82-9b b6-b9 bb bd-c3 c5-cf ea-1d503 1e-37 52-6b 86-9f ba-d3 ee-1d607",
   "22-3b 56-6f 8a-a5 c2-da dc-e1 fc-1d714 16-1b 36-4e 50-55 70-88 8a-8f aa-c2 c4-c9 cb 1df00-9",
   "b-1e 25-2a 1e922-43"]

/-- Category `Lt`: titlecase letter. -/
def categoryLt : CharSet := .ofLines ["1c5 c8 cb f2 1f88-8f 98-9f a8-af bc cc fc"]

/-- Category `Lm`: modifier letter. -/
def categoryLm : CharSet := .ofLines
  ["2b0-c1 c6-d1 e0-e4 ec ee 374 7a 559 640 e5-e6 7f4-f5 fa 81a 24 28 c9 971 e46 c6 10fc 17d7 1843",
   "1aa7 1c78-7d 1d2c-6a 78 9b-bf 2071 7f 90-9c 2c7c-7d 2d6f 2e2f 3005 31-35 3b 9d-9e fc-fe a015",
   "a4f8-fd a60c 7f 9c-9d a717-1f 70 88 f2-f4 f8-f9 a9cf e6 aa70 dd f3-f4 ab5c-5f 69 ff70 9e-9f",
   "10780-85 87-b0 b2-ba 16b40-43 16f93-9f e0-e1 e3 1aff0-f3 f5-fb fd-fe 1e030-6d 1e137-3d 1e4eb",
   "1e94b"]

/-- Category `Lo`: other letter. -/
def categoryLo : CharSet := .ofLines
  ["aa ba 1bb c0-c3 294 5d0-ea ef-f2 620-3f 41-4a 6e-6f 71-d3 d5 ee-ef fa-fc ff 710 12-2f 4d-a5 b1",
   "ca-ea 800-15 40-58 60-6a 70-87 89-8e a0-c8 904-39 3d 50 58-61 72-80 85-8c 8f-90 93-a8 aa-b0 b2",
   "b6-b9 bd ce dc-dd df-e1 f0-f1 fc a05-a f-10 13-28 2a-30 32-33 35-36 38-39 59-5c 5e 72-74 85-8d",
   "8f-91 93-a8 aa-b0 b2-b3 b5-b9 bd d0 e0-e1 f9 b05-c f-10 13-28 2a-30 32-33 35-39 3d 5c-5d 5f-61",
   "71 83 85-8a 8e-90 92-95 99-9a 9c 9e-9f a3-a4 a8-aa ae-b9 d0 c05-c e-10 12-28 2a-39 3d 58-5a 5d",
   "60-61 80 85-8c 8e-90 92-a8 aa-b3 b5-b9 bd dd-de e0-e1 f1-f2 d04-c e-10 12-3a 3d 4e 54-56 5f-61",
   "7a-7f 85-96 9a-b1 b3-bb bd c0-c6 e01-30 32-33 40-45 81-82 84 86-8a 8c-a3 a5 a7-b0 b2-b3 bd",
   "c0-c4 dc-df f00 40-47 49-6c 88-8c 1000-2a 3f 50-55 5a-5d 61 65-66 6e-70 75-81 8e 1100-1248",
   "4a-4d 50-56 58 5a-5d 60-88 8a-8d 90-b0 b2-b5 b8-be c0 c2-c5 c8-d6 d8-1310 12-15 18-5a 80-8f",
   "1401-166c 6f-7f 81-9a a0-ea f1-f8 1700-11 1f-31 40-51 60-6c 6e-70 80-b3 dc 1820-42 44-78 80-84",
   "87-a8 aa b0-f5 1900-1e 50-6d 70-74 80-ab b0-c9 1a00-16 20-54 1b05-33 45-4c 83-a0 ae-af ba-e5",
   "1c00-23 4d-4f 5a-77 e9-ec ee-f3 f5-f6 fa 2135-38 2d30-67 80-96 a0-a6 a8-ae b0-b6 b8-be c0-c6",
   "c8-ce d0-d6 d8-de 3006 3c 41-96 9f a1-fa ff 3105-2f 31-8e a0-bf f0-ff 3400-4dbf 4e00-a014",
   "16-a48c d0-f7 a500-a60b 10-1f 2a-2b 6e a0-e5 a78f f7 fb-a801 3-5 7-a c-22 40-73 82-b3 f2-f7 fb",
   "fd-fe a90a-25 30-46 60-7c 84-b2 e0-e4 e7-ef fa-fe aa00-28 40-42 44-4b 60-6f 71-76 7a 7e-af b1",
   "b5-b6 b9-bd c0 c2 db-dc e0-ea f2 ab01-6 9-e 11-16 20-26 28-2e c0-e2 ac00-d7a3 b0-c6 cb-fb",
   "f900-fa6d 70-d9 fb1d 1f-28 2a-36 38-3c 3e 40-41 43-44 46-b1 d3-fd3d 50-8f 92-c7 f0-fb fe70-74",
   "76-fc ff66-6f 71-9d a0-be c2-c7 ca-cf d2-d7 da-dc 10000-b d-26 28-3a 3c-3d 3f-4d 50-5d 80-fa",
   "10280-9c a0-d0 10300-1f 2d-40 42-49 50-75 80-9d a0-c3 c8-cf 10450-9d 10500-27 30-63",
   "10600-10736 40-55 60-67 10800-5 8 a-35 37-38 3c 3f-55 60-76 80-9e e0-f2 f4-f5 10900-15 20-39",
   "80-b7 be-bf 10a00 10-13 15-17 19-35 60-7c 80-9c c0-c7 c9-e4 10b00-35 40-55 60-72 80-91",
   "10c00-48 10d00-23 10e80-a9 b0-b1 10f00-1c 27 30-45 70-81 b0-c4 e0-f6 11003-37 71-72 75 83-af",
   "d0-e8 11103-26 44 47 50-72 76 83-b2 c1-c4 da dc 11200-11 13-2b 3f-40 80-86 88 8a-8d 8f-9d",
   "9f-a8 b0-de 11305-c f-10 13-28 2a-30 32-33 35-39 3d 50 5d-61 11400-34 47-4a 5f-61 80-af c4-c5",
   "c7 11580-ae d8-db 11600-2f 44 80-aa b8 11700-1a 40-46 11800-2b ff-11906 9 c-13 15-16 18-2f 3f",
   "41 a0-a7 aa-d0 e1 e3 11a00 b-32 3a 50 5c-89 9d b0-f8 11c00-8 a-2e 40 72-8f 11d00-6 8-9 b-30 46",
   "60-65 67-68 6a-89 98 11ee0-f2 11f02 4-10 12-33 b0 12000-12399 12480-12543 12f90-f0 13000-1342f",
   "41-46 14400-14646 16800-16a38 40-5e 70-be d0-ed 16b00-2f 63-77 7d-8f 16f00-4a 50 17000-187f7",
   "18800-18cd5 18d00-8 1b000-1b122 32 50-52 55 64-67 70-1b2fb 1bc00-6a 70-7c 80-88 90-99 1df0a",
   "1e100-2c 4e 1e290-ad c0-eb 1e4d0-ea 1e7e0-e6 e8-eb ed-ee f0-fe 1e800-c4 1ee00-3 5-1f 21-22 24",
   "27 29-32 34-37 39 3b 42 47/4b 4d-4f 51-52 54 57/5f 61-62 64 67-6a 6c-72 74-77 79-7c 7e 80-89",
   "8b-9b a1-a3 a5-a9 ab-bb 20000-2a6df 2a700-2b739 40-2b81d 20-2cea1 b0-2ebe0 2f800-2fa1d",
   "30000-3134a 50-323af"]

/-- Category `Mn`: nonspacing mark. -/
def categoryMn : CharSet := .ofLines
  ["300-6f 483-87 591-bd bf c1-c2 c4-c5 c7 610-1a 4b-5f 70 d6-dc df-e4 e7-e8 ea-ed 711 30-4a a6-b0",
   "eb-f3 fd 816-19 1b-23 25-27 29-2d 59-5b 98-9f ca-e1 e3-902 3a 3c 41-48 4d 51-57 62-63 81 bc",
   "c1-c4 cd e2-e3 fe a01-2 3c 41-42 47-48 4b-4d 51 70-71 75 81-82 bc c1-c5 c7-c8 cd e2-e3 fa-ff",
   "b01 3c 3f 41-44 4d 55-56 62-63 82 c0 cd c00 4 3c 3e-40 46-48 4a-4d 55-56 62-63 81 bc bf c6",
   "cc-cd e2-e3 d00-1 3b-3c 41-44 4d 62-63 81 ca d2-d4 d6 e31 34-3a 47-4e b1 b4-bc c8-ce f18-19",
   "35/39 71-7e 80-84 86-87 8d-97 99-bc c6 102d-30 32-37 39-3a 3d-3e 58-59 5e-60 71-74 82 85-86 8d",
   "9d 135d-5f 1712-14 32-33 52-53 72-73 b4-b5 b7-bd c6 c9-d3 dd 180b-d f 85-86 a9 1920-22 27-28",
   "32 39-3b 1a17-18 1b 56 58-5e 60 62 65-6c 73-7c 7f b0-bd bf-ce 1b00-3 34 36-3a 3c 42 6b-73",
   "80-81 a2-a5 a8-a9 ab-ad e6 e8-e9 ed ef-f1 1c2c-33 36-37 d0-d2 d4-e0 e2-e8 ed f4 f8-f9 1dc0-ff",
   "20d0-dc e1 e5-f0 2cef-f1 2d7f e0-ff 302a-2d 99-9a a66f 74-7d 9e-9f f0-f1 a802 6 b 25-26 2c",
   "c4-c5 e0-f1 ff a926-2d 47-51 80-82 b3 b6-b9 bc-bd e5 aa29-2e 31-32 35-36 43 4c 7c b0 b2-b4",
   "b7-b8 be-bf c1 ec-ed f6 abe5 e8 ed fb1e fe00-f 20-2f 101fd 102e0 10376-7a 10a01-3 5-6 c-f",
   "38-3a 3f e5-e6 10d24-27 10eab-ac fd-ff 10f46-50 82-85 11001 38-46 70 73-74 7f-81 b3-b6 b9-ba",
   "c2 11100-2 27-2b 2d-34 73 80-81 b6-be c9-cc cf 1122f-31 34 36-37 3e 41 df e3-ea 11300-1 3b-3c",
   "40 66-6c 70-74 11438-3f 42-44 46 5e b3-b8 ba bf-c0 c2-c3 115b2-b5 bc-bd bf-c0 dc-dd 11633-3a",
   "3d 3f-40 ab ad b0-b5 b7 1171d-1f 22-25 27-2b 1182f-37 39-3a 1193b-3c 3e 43 d4-d7 da-db e0",
   "11a01-a 33-38 3b-3e 47 51-56 59-5b 8a-96 98-99 11c30-36 38-3d 3f 92-a7 aa-b0 b2-b3 b5-b6",
   "11d31-36 3a 3c-3d 3f-45 47 90-91 95 97 11ef3-f4 11f00-1 36-3a 40 42 13440 47-55 16af0-f4",
   "16b30-36 16f4f 8f-92 e4 1bc9d-9e 1cf00-2d 30-46 1d167-69 7b-82 85-8b aa-ad 1d242-44 1da00-36",
   "3b-6c 75 84 9b-9f a1-af 1e000-6 8-18 1b-21 23-24 26-2a 8f 1e130-36 1e2ae ec-ef 1e4ec-ef",
   "1e8d0-d6 1e944-4a e0100-ef"]

/-- Category `Mc`: spacing mark. -/
def categoryMc : CharSet := .ofLines
  ["903 3b 3e-40 49-4c 4e-4f 82-83 be-c0 c7-c8 cb-cc d7 a03 3e-40 83 be-c0 c9 cb-cc b02-3 3e 40",
   "47-48 4b-4c 57 be-bf c1-c2 c6-c8 ca-cc d7 c01-3 41-44 82-83 be c0-c4 c7-c8 ca-cb d5-d6 f3",
   "d02-3 3e-40 46-48 4a-4c 57 82-83 cf-d1 d8-df f2-f3 f3e-3f 7f 102b-2c 31 38 3b-3c 56-57 62-64",
   "67-6d 83-84 87-8c 8f 9a-9c 1715 34 b6 be-c5 c7-c8 1923-26 29-2b 30-31 33-38 1a19-1a 55 57 61",
   "63-64 6d-72 1b04 35 3b 3d-41 43-44 82 a1 a6-a7 aa e7 ea-ec ee f2-f3 1c24-2b 34-35 e1 f7",
   "302e-2f a823-24 27 80-81 b4-c3 a952-53 83 b4-b5 ba-bb be-c0 aa2f-30 33-34 4d 7b 7d eb ee-ef f5",
   "abe3-e4 e6-e7 e9-ea ec 11000 2 82 b0-b2 b7-b8 1112c 45-46 82 b3-b5 bf-c0 ce 1122c-2e 32-33 35",
   "e0-e2 11302-3 3e-3f 41-44 47-48 4b-4d 57 62-63 11435-37 40-41 45 b0-b2 b9 bb-be c1 115af-b1",
   "b8-bb be 11630-32 3b-3c 3e ac ae-af b6 11720-21 26 1182c-2e 38 11930-35 37-38 3d 40 42 d1-d3",
   "dc-df e4 11a39 57-58 97 11c2f 3e a9 b1 b4 11d8a-8e 93-94 96 11ef5-f6 11f03 34-35 3e-3f 41",
   "16f51-87 f0-f1 1d165-66 6d-72"]

/-- Category `Me`: enclosing mark. -/
def categoryMe : CharSet := .ofLines ["488-89 1abe 20dd-e0 e2-e4 a670-72"]

/-- Category `Nd`: decimal number. -/
def categoryNd : CharSet := .ofLines
  ["30-39 660-69 f0-f9 7c0-c9 966-6f e6-ef a66-6f e6-ef b66-6f e6-ef c66-6f e6-ef d66-6f e6-ef",
   "e50-59 d0-d9 f20-29 1040-49 90-99 17e0-e9 1810-19 1946-4f d0-d9 1a80-89 90-99 1b50-59 b0-b9",
   "1c40-49 50-59 a620-29 a8d0-d9 a900-9 d0-d9 f0-f9 aa50-59 abf0-f9 ff10-19 104a0-a9 10d30-39",
   "11066-6f f0-f9 11136-3f d0-d9 112f0-f9 11450-59 d0-d9 11650-59 c0-c9 11730-39 118e0-e9",
   "11950-59 11c50-59 11d50-59 a0-a9 11f50-59 16a60-69 c0-c9 16b50-59 1d7ce-ff 1e140-49 1e2f0-f9",
   "1e4f0-f9 1e950-59 1fbf0-f9"]

/-- Category `Nl`: letter number. -/
def categoryNl : CharSet := .ofLines ["16ee-f0 2160-82 85-88 3007 21-29 38-3a a6e6-ef 10140-74 10341 4a d1-d5 12400-6e"]

/-- Category `No`: other number. -/
def categoryNo : CharSet := .ofLines
  ["b2-b3 b9 bc-be 9f4-f9 b72-77 f0-f2 c78-7e d58-5e 70-78 f2a-33 1369-7c 17f0-f9 19da 2070 74-79",
   "80-89 2150-5f 89 2460-9b ea-ff 2776-93 2cfd 3192-95 3220-29 48-4f 51-5f 80-89 b1-bf a830-35",
   "10107-33 75-78 8a-8b 102e1-fb 10320-23 10858-5f 79-7f a7-af fb-ff 10916-1b bc-bd c0-cf d2-ff",
   "10a40-48 7d-7e 9d-9f eb-ef 10b58-5f 78-7f a9-af 10cfa-ff 10e60-7e 10f1d-26 51-54 c5-cb",
   "11052-65 111e1-f4 1173a-3b 118ea-f2 11c5a-6c 11fc0-d4 16b5b-61 16e80-96 1d2c0-d3 e0-f3",
   "1d360-78 1e8c7-cf 1ec71-ab ad-af b1-b4 1ed01-2d 2f-3d 1f100-c"]

/-- Category `Pc`: connector punctuation. -/
def categoryPc : CharSet := .ofLines ["5f 203f-40 54 fe33-34 4d-4f ff3f"]

/-- Category `Pd`: dash punctuation. -/
def categoryPd : CharSet := .ofLines
  ["2d 58a be 1400 1806 2010-15 2e17 1a 3a-3b 40 5d 301c 30 a0 fe31-32 58 63 ff0d 10ead"]

/-- Category `Ps`: open punctuation. -/
def categoryPs : CharSet := .ofLines
  ["28 5b 7b f3a 3c 169b 201a 1e 45 7d 8d 2308 a 29 2768/74 c5 e6/ee 2983/97 d8 da fc 2e22/28 42",
   "55/5b 3008/10 14/1a 1d fd3f fe17 35/43 47 59/5d ff08 3b 5b 5f 62"]

/-- Category `Pe`: close punctuation. -/
def categoryPe : CharSet := .ofLines
  ["29 5d 7d f3b 3d 169c 2046 7e 8e 2309 b 2a 2769/75 c6 e7/ef 2984/98 d9 db fd 2e23/29 56/5c",
   "3009/11 15/1b 1e-1f fd3e fe18 36/44 48 5a/5e ff09 3d 5d 60 63"]

/-- Category `Pi`: initial punctuation. -/
def categoryPi : CharSet := .ofLines ["ab 2018 1b-1c 1f 39 2e02 4 9 c 1c 20"]

/-- Category `Pf`: final punctuation. -/
def categoryPf : CharSet := .ofLines ["bb 2019 1d 3a 2e03 5 a d 1d 21"]

/-- Category `Po`: other punctuation. -/
def categoryPo : CharSet := .ofLines
  ["21-23 25-27 2a 2c 2e-2f 3a-3b 3f-40 5c a1 a7 b6-b7 bf 37e 87 55a-5f 89 c0 c3 c6 f3-f4 609-a",
   "c-d 1b 1d-1f 6a-6d d4 700-d f7-f9 830-3e 5e 964-65 70 fd a76 f0 c77 84 df4 e4f 5a-5b f04-12 14",
   "85 d0-d4 d9-da 104a-4f fb 1360-68 166e eb-ed 1735-36 d4-d6 d8-da 1800-5 7-a 1944-45 1a1e-1f",
   "a0-a6 a8-ad 1b5a-60 7d-7e fc-ff 1c3b-3f 7e-7f c0-c7 d3 2016-17 20-27 30-38 3b-3e 41-43 47-51",
   "53 55-5e 2cf9-fc fe-ff 2d70 2e00-1 6-8 b e-16 18-19 1b 1e-1f 2a-2e 30-39 3c-3f 41 43-4f 52-54",
   "3001-3 3d fb a4fe-ff a60d-f 73 7e f2-f7 a874-77 ce-cf f8-fa fc a92e-2f 5f c1-cd de-df aa5c-5f",
   "de-df f0-f1 abeb fe10-16 19 30 45-46 49-4c 50-52 54-57 5f-61 68 6a-6b ff01-3 5-7 a c e-f 1a-1b",
   "1f-20 3c 61 64-65 10100-2 1039f d0 1056f 10857 1091f 3f 10a50-58 7f f0-f6 10b39-3f 99-9c",
   "10f55-59 86-89 11047-4d bb-bc be-c1 11140-43 74-75 c5-c8 cd db dd-df 11238-3d a9 1144b-4f",
   "5a-5b 5d c6 115c1-d7 11641-43 60-6c b9 1173c-3e 1183b 11944-46 e2 11a3f-46 9a-9c 9e-a2 11b00-9",
   "11c41-45 70-71 11ef7-f8 11f43-4f ff 12470-74 12ff1-f2 16a6e-6f f5 16b37-3b 44 16e97-9a 16fe2",
   "1bc9f 1da87-8b 1e95e-5f"]

/-- Category `Sm`: math symbol. -/
def categorySm : CharSet := .ofLines
  ["2b 3c-3e 7c 7e ac b1 d7 f7 3f6 606-8 2044 52 7a-7c 8a-8c 2118 40-44 4b 90-94 9a-9b a0 a3 a6 ae",
   "ce-cf d2 d4 f4-22ff 2320-21 7c 9b-b3 dc-e1 25b7 c1 f8-ff 266f 27c0-c4 c7-e5 f0-ff 2900-82",
   "99-d7 dc-fb fe-2aff 2b30-44 47-4c fb29 fe62 64-66 ff0b 1c-1e 5c 5e e2 e9-ec 1d6c1 db fb 1d715",
   "35 4f 6f 89 a9 c3 1eef0-f1"]

/-- Category `Sc`: currency symbol. -/
def categorySc : CharSet := .ofLines
  ["24 a2-a5 58f 60b 7fe-ff 9f2-f3 fb af1 bf9 e3f 17db 20a0-c0 a838 fdfc fe69 ff04 e0-e1 e5-e6",
   "11fdd-e0 1e2ff 1ecb0"]

/-- Category `Sk`: modifier symbol. -/
def categorySk : CharSet := .ofLines
  ["5e 60 a8 af b4 b8 2c2-c5 d2-df e5-eb ed ef-ff 375 84-85 888 1fbd bf-c1 cd-cf dd-df ed-ef fd-fe",
   "309b-9c a700-16 20-21 89-8a ab5b 6a-6b fbb2-c2 ff3e 40 e3 1f3fb-ff"]

/-- Category `So`: other symbol. -/
def categorySo : CharSet := .ofLines
  ["a6 a9 ae b0 482 58d-8e 60e-f de e9 fd-fe 7f6 9fa b70 f3-f8 fa c7f d4f 79 f01-3 13 15-17 1a-1f",
   "34/38 be-c5 c7-cc ce-cf d5-d8 109e-9f 1390-99 166d 1940 de-ff 1b61-6a 74-7c 2100-1 3-6 8-9 14",
   "16-17 1e-23 25/29 2e 3a-3b 4a 4c-4d 4f 8a-8b 95-99 9c-9f a1-a2 a4-a5 a7-ad af-cd d0-d1 d3",
   "d5-f3 2300-7 c-1f 22-28 2b-7b 7d-9a b4-db e2-2426 40-4a 9c-e9 2500-b6 b8-c0 c2-f7 2600-6e",
   "70-2767 94-bf 2800-ff 2b00-2f 45-46 4d-73 76-95 97-ff 2ce5-ea 2e50-51 80-99 9b-f3 2f00-d5",
   "f0-fb 3004 12-13 20 36-37 3e-3f 3190-91 96-9f c0-e3 3200-1e 2a-47 50 60-7f 8a-b0 c0-33ff",
   "4dc0-ff a490-c6 a828-2b 36-37 39 aa77-79 fd40-4f cf fd-ff ffe4 e8 ed-ee fc-fd 10137-3f 79-89",
   "8c-8e 90-9c a0 d0-fc 10877-78 10ac8 1173f 11fd5-dc e1-f1 16b3c-3f 45 1bc9c 1cf50-c3 1d000-f5",
   "1d100-26 29-64 6a-6c 83-84 8c-a9 ae-ea 1d200-41 45 1d300-56 1d800-1d9ff 1da37-3a 6d-74 76-83",
   "85-86 1e14f 1ecac 1ed2e 1f000-2b 30-93 a0-ae b1-bf c1-cf d1-f5 1f10d-ad e6-1f202 10-3b 40-48",
   "50-51 60-65 1f300-fa 1f400-1f6d7 dc-ec f0-fc 1f700-76 7b-d9 e0-eb f0 1f800-b 10-47 50-59 60-87",
   "90-ad b0-b1 1f900-1fa53 60-6d 70-7c 80-88 90-bd bf-c5 ce-db e0-e8 f0-f8 1fb00-92 94-ca"]

/-- Category `Zs`: space separator. -/
def categoryZs : CharSet := .ofLines ["20 a0 1680 2000-a 2f 5f 3000"]

/-- Category `Zl`: line separator. -/
def categoryZl : CharSet := .ofLines ["2028"]

/-- Category `Zp`: paragraph separator. -/
def categoryZp : CharSet := .ofLines ["2029"]

/-- Category `Cc`: control. -/
def categoryCc : CharSet := .ofLines ["0-1f 7f-9f"]

/-- Category `Cf`: format. -/
def categoryCf : CharSet := .ofLines
  ["ad 600-5 1c dd 70f 890-91 e2 180e 200b-f 2a-2e 60-64 66-6f feff fff9-fb 110bd cd 13430-3f",
   "1bca0-a3 1d173-7a e0001 20-7f"]

/-- Category `Co`: private use. -/
def categoryCo : CharSet := .ofLines ["e000-f8ff f0000-ffffd 100000-10fffd"]

/-- All categories but the unassigned and surrogate code points, under their short names. -/
def categories : List (String × CharSet) :=
  [("Lu", categoryLu), ("Ll", categoryLl), ("Lt", categoryLt), ("Lm", categoryLm),
    ("Lo", categoryLo), ("Mn", categoryMn), ("Mc", categoryMc), ("Me", categoryMe),
    ("Nd", categoryNd), ("Nl", categoryNl), ("No", categoryNo), ("Pc", categoryPc),
    ("Pd", categoryPd), ("Ps", categoryPs), ("Pe", categoryPe), ("Pi", categoryPi),
    ("Pf", categoryPf), ("Po", categoryPo), ("Sm", categorySm), ("Sc", categorySc),
    ("Sk", categorySk), ("So", categorySo), ("Zs", categoryZs), ("Zl", categoryZl),
    ("Zp", categoryZp), ("Cc", categoryCc), ("Cf", categoryCf), ("Co", categoryCo)]

end Workflow.Text
