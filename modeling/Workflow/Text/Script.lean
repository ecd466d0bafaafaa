import Workflow.Text.CharSet

/-!
Scripts of characters, under their names and short names without case and underscores.
-/

namespace Workflow.Text

/-- A script: its names, and the ranges of its characters in hexadecimal. -/
structure Script where
  names : List String
  ranges : List String

/-- The characters of a script. -/
def Script.set (s : Script) : CharSet := .ofLines s.ranges

def scripts : List Script := [⟨["adlm", "adlam"], ["1e900-4b 50-59 5e-5f"]⟩,
  ⟨["aghb", "caucasianalbanian"], ["10530-63 6f"]⟩,
  ⟨["ahom"], ["11700-1a 1d-2b 30-46"]⟩,
  ⟨["arab", "arabic"],
    ["600-4 6-b d-1a 1c-1e 20-3f 41-4a 56-6f 71-dc de-ff 750-7f 870-8e 90-91 98-e1 e3-ff fb50-c2",
     "d3-fd3d 40-8f 92-c7 cf f0-ff fe70-74 76-fc 10e60-7e fd-ff 1ee00-3 5-1f 21-22 24 27 29-32",
     "34-37 39 3b 42 47/4b 4d-4f 51-52 54 57/5f 61-62 64 67-6a 6c-72 74-77 79-7c 7e 80-89 8b-9b",
     "a1-a3 a5-a9 ab-bb f0-f1"]⟩,
  ⟨["armi", "imperialaramaic"], ["10840-55 57-5f"]⟩,
  ⟨["armn", "armenian"], ["531-56 59-8a 8d-8f fb13-17"]⟩,
  ⟨["avst", "avestan"], ["10b00-35 39-3f"]⟩,
  ⟨["bali", "balinese"], ["1b00-4c 50-7e"]⟩,
  ⟨["bamu", "bamum"], ["a6a0-f7 16800-16a38"]⟩,
  ⟨["bass", "bassavah"], ["16ad0-ed f0-f5"]⟩,
  ⟨["batk", "batak"], ["1bc0-f3 fc-ff"]⟩,
  ⟨["beng", "bengali"],
    ["980-83 85-8c 8f-90 93-a8 aa-b0 b2 b6-b9 bc-c4 c7-c8 cb-ce d7 dc-dd df-e3 e6-fe"]⟩,
  ⟨["bhks", "bhaiksuki"], ["11c00-8 a-36 38-45 50-6c"]⟩,
  ⟨["bopo", "bopomofo"], ["2ea-eb 3105-2f a0-bf"]⟩,
  ⟨["brah", "brahmi"], ["11000-4d 52-75 7f"]⟩,
  ⟨["brai", "braille"], ["2800-ff"]⟩,
  ⟨["bugi", "buginese"], ["1a00-1b 1e-1f"]⟩,
  ⟨["buhd", "buhid"], ["1740-53"]⟩,
  ⟨["cakm", "chakma"], ["11100-34 36-47"]⟩,
  ⟨["cans", "canadianaboriginal"], ["1400-167f 18b0-f5 11ab0-bf"]⟩,
  ⟨["cari", "carian"], ["102a0-d0"]⟩,
  ⟨["cham"], ["aa00-36 40-4d 50-59 5c-5f"]⟩,
  ⟨["cher", "cherokee"], ["13a0-f5 f8-fd ab70-bf"]⟩,
  ⟨["chrs", "chorasmian"], ["10fb0-cb"]⟩,
  ⟨["copt", "coptic", "qaac"], ["3e2-ef 2c80-f3 f9-ff"]⟩,
  ⟨["cpmn", "cyprominoan"], ["12f90-f2"]⟩,
  ⟨["cprt", "cypriot"], ["10800-5 8 a-35 37-38 3c 3f"]⟩,
  ⟨["cyrl", "cyrillic"], ["400-84 87-52f 1c80-88 1d2b 78 2de0-ff a640-9f fe2e-2f 1e030-6d 8f"]⟩,
  ⟨["deva", "devanagari"], ["900-50 55-63 66-7f a8e0-ff 11b00-9"]⟩,
  ⟨["diak", "divesakuru"], ["11900-6 9 c-13 15-16 18-35 37-38 3b-46 50-59"]⟩,
  ⟨["dogr", "dogra"], ["11800-3b"]⟩,
  ⟨["dsrt", "deseret"], ["10400-4f"]⟩,
  ⟨["dupl", "duployan"], ["1bc00-6a 70-7c 80-88 90-99 9c-9f"]⟩,
  ⟨["egyp", "egyptianhieroglyphs"], ["13000-13455"]⟩,
  ⟨["elba", "elbasan"], ["10500-27"]⟩,
  ⟨["elym", "elymaic"], ["10fe0-f6"]⟩,
  ⟨["ethi", "ethiopic"],
    ["1200-48 4a-4d 50-56 58 5a-5d 60-88 8a-8d 90-b0 b2-b5 b8-be c0 c2-c5 c8-d6 d8-1310 12-15",
     "18-5a 5d-7c 80-99 2d80-96 a0-a6 a8-ae b0-b6 b8-be c0-c6 c8-ce d0-d6 d8-de ab01-6 9-e 11-16",
     "20-26 28-2e 1e7e0-e6 e8-eb ed-ee f0-fe"]⟩,
  ⟨["geor", "georgian"], ["10a0-c5 c7 cd d0-fa fc-ff 1c90-ba bd-bf 2d00-25 27 2d"]⟩,
  ⟨["glag", "glagolitic"], ["2c00-5f 1e000-6 8-18 1b-21 23-24 26-2a"]⟩,
  ⟨["gong", "gunjalagondi"], ["11d60-65 67-68 6a-8e 90-91 93-98 a0-a9"]⟩,
  ⟨["gonm", "masaramgondi"], ["11d00-6 8-9 b-36 3a 3c-3d 3f-47 50-59"]⟩,
  ⟨["goth", "gothic"], ["10330-4a"]⟩,
  ⟨["gran", "grantha"],
    ["11300-3 5-c f-10 13-28 2a-30 32-33 35-39 3c-44 47-48 4b-4d 50 57 5d-63 66-6c 70-74"]⟩,
  ⟨["grek", "greek"],
    ["370-73 75-77 7a-7d 7f 84 86 88-8a 8c 8e-a1 a3-e1 f0-ff 1d26-2a 5d-61 66-6a bf 1f00-15 18-1d",
     "20-45 48-4d 50-57 59/5d 5f-7d 80-b4 b6-c4 c6-d3 d6-db dd-ef f2-f4 f6-fe 2126 ab65 10140-8e",
     "a0 1d200-45"]⟩,
  ⟨["gujr", "gujarati"],
    ["a81-83 85-8d 8f-91 93-a8 aa-b0 b2-b3 b5-b9 bc-c5 c7-c9 cb-cd d0 e0-e3 e6-f1 f9-ff"]⟩,
  ⟨["guru", "gurmukhi"],
    ["a01-3 5-a f-10 13-28 2a-30 32-33 35-36 38-39 3c 3e-42 47-48 4b-4d 51 59-5c 5e 66-76"]⟩,
  ⟨["hang", "hangul"],
    ["1100-ff 302e-2f 3131-8e 3200-1e 60-7e a960-7c ac00-d7a3 b0-c6 cb-fb ffa0-be c2-c7 ca-cf",
     "d2-d7 da-dc"]⟩,
  ⟨["hani", "han"],
    ["2e80-99 9b-f3 2f00-d5 3005 7 21-29 38-3b 3400-4dbf 4e00-9fff f900-fa6d 70-d9 16fe2-e3 f0-f1",
     "20000-2a6df 2a700-2b739 40-2b81d 20-2cea1 b0-2ebe0 2f800-2fa1d 30000-3134a 50-323af"]⟩,
  ⟨["hano", "hanunoo"], ["1720-34"]⟩,
  ⟨["hatr", "hatran"], ["108e0-f2 f4-f5 fb-ff"]⟩,
  ⟨["hebr", "hebrew"], ["591-c7 d0-ea ef-f4 fb1d-36 38-3c 3e 40-41 43-44 46-4f"]⟩,
  ⟨["hira", "hiragana"], ["3041-96 9d-9f 1b001-1b11f 32 50-52 1f200"]⟩,
  ⟨["hluw", "anatolianhieroglyphs"], ["14400-14646"]⟩,
  ⟨["hmng", "pahawhhmong"], ["16b00-45 50-59 5b-61 63-77 7d-8f"]⟩,
  ⟨["hmnp", "nyiakengpuachuehmong"], ["1e100-2c 30-3d 40-49 4e-4f"]⟩,
  ⟨["hung", "oldhungarian"], ["10c80-b2 c0-f2 fa-ff"]⟩,
  ⟨["ital", "olditalic"], ["10300-23 2d-2f"]⟩,
  ⟨["java", "javanese"], ["a980-cd d0-d9 de-df"]⟩,
  ⟨["kali", "kayahli"], ["a900-2d 2f"]⟩,
  ⟨["kana", "katakana"],
    ["30a1-fa fd-ff 31f0-ff 32d0-fe 3300-57 ff66-6f 71-9d 1aff0-f3 f5-fb fd-fe 1b000 1b120-22 55",
     "64-67"]⟩,
  ⟨["kawi"], ["11f00-10 12-3a 3e-59"]⟩,
  ⟨["khar", "kharoshthi"], ["10a00-3 5-6 c-13 15-17 19-35 38-3a 3f-48 50-58"]⟩,
  ⟨["khmr", "khmer"], ["1780-dd e0-e9 f0-f9 19e0-ff"]⟩,
  ⟨["khoj", "khojki"], ["11200-11 13-41"]⟩,
  ⟨["kits", "khitansmallscript"], ["16fe4 18b00-18cd5"]⟩,
  ⟨["knda", "kannada"],
    ["c80-8c 8e-90 92-a8 aa-b3 b5-b9 bc-c4 c6-c8 ca-cd d5-d6 dd-de e0-e3 e6-ef f1-f3"]⟩,
  ⟨["kthi", "kaithi"], ["11080-c2 cd"]⟩,
  ⟨["lana", "taitham"], ["1a20-5e 60-7c 7f-89 90-99 a0-ad"]⟩,
  ⟨["laoo", "lao"], ["e81-82 84 86-8a 8c-a3 a5 a7-bd c0-c4 c6 c8-ce d0-d9 dc-df"]⟩,
  ⟨["latn", "latin"],
    ["41-5a 61-7a aa ba c0-d6 d8-f6 f8-2b8 e0-e4 1d00-25 2c-5c 62-65 6b-77 79-be 1e00-ff 2071 7f",
     "90-9c 212a-2b 32 4e 60-88 2c60-7f a722-87 8b-ca d0-d1 d3 d5-d9 f2-ff ab30-5a 5c-64 66-69",
     "fb00-6 ff21-3a 41-5a 10780-85 87-b0 b2-ba 1df00-1e 25-2a"]⟩,
  ⟨["lepc", "lepcha"], ["1c00-37 3b-49 4d-4f"]⟩,
  ⟨["limb", "limbu"], ["1900-1e 20-2b 30-3b 40 44-4f"]⟩,
  ⟨["lina", "lineara"], ["10600-10736 40-55 60-67"]⟩,
  ⟨["linb", "linearb"], ["10000-b d-26 28-3a 3c-3d 3f-4d 50-5d 80-fa"]⟩,
  ⟨["lisu"], ["a4d0-ff 11fb0"]⟩,
  ⟨["lyci", "lycian"], ["10280-9c"]⟩,
  ⟨["lydi", "lydian"], ["10920-39 3f"]⟩,
  ⟨["mahj", "mahajani"], ["11150-76"]⟩,
  ⟨["maka", "makasar"], ["11ee0-f8"]⟩,
  ⟨["mand", "mandaic"], ["840-5b 5e"]⟩,
  ⟨["mani", "manichaean"], ["10ac0-e6 eb-f6"]⟩,
  ⟨["marc", "marchen"], ["11c70-8f 92-a7 a9-b6"]⟩,
  ⟨["medf", "medefaidrin"], ["16e40-9a"]⟩,
  ⟨["mend", "mendekikakui"], ["1e800-c4 c7-d6"]⟩,
  ⟨["merc", "meroiticcursive"], ["109a0-b7 bc-cf d2-ff"]⟩,
  ⟨["mero", "meroitichieroglyphs"], ["10980-9f"]⟩,
  ⟨["mlym", "malayalam"], ["d00-c e-10 12-44 46-48 4a-4f 54-63 66-7f"]⟩,
  ⟨["modi"], ["11600-44 50-59"]⟩,
  ⟨["mong", "mongolian"], ["1800-1 4 6-19 20-78 80-aa 11660-6c"]⟩,
  ⟨["mroo", "mro"], ["16a40-5e 60-69 6e-6f"]⟩,
  ⟨["mtei", "meeteimayek"], ["aae0-f6 abc0-ed f0-f9"]⟩,
  ⟨["mult", "multani"], ["11280-86 88 8a-8d 8f-9d 9f-a9"]⟩,
  ⟨["mymr", "myanmar"], ["1000-9f a9e0-fe aa60-7f"]⟩,
  ⟨["nagm", "nagmundari"], ["1e4d0-f9"]⟩,
  ⟨["nand", "nandinagari"], ["119a0-a7 aa-d7 da-e4"]⟩,
  ⟨["narb", "oldnortharabian"], ["10a80-9f"]⟩,
  ⟨["nbat", "nabataean"], ["10880-9e a7-af"]⟩,
  ⟨["newa"], ["11400-5b 5d-61"]⟩,
  ⟨["nkoo", "nko"], ["7c0-fa fd-ff"]⟩,
  ⟨["nshu", "nushu"], ["16fe1 1b170-1b2fb"]⟩,
  ⟨["ogam", "ogham"], ["1680-9c"]⟩,
  ⟨["olck", "olchiki"], ["1c50-7f"]⟩,
  ⟨["orkh", "oldturkic"], ["10c00-48"]⟩,
  ⟨["orya", "oriya"],
    ["b01-3 5-c f-10 13-28 2a-30 32-33 35-39 3c-44 47-48 4b-4d 55-57 5c-5d 5f-63 66-77"]⟩,
  ⟨["osge", "osage"], ["104b0-d3 d8-fb"]⟩,
  ⟨["osma", "osmanya"], ["10480-9d a0-a9"]⟩,
  ⟨["ougr", "olduyghur"], ["10f70-89"]⟩,
  ⟨["palm", "palmyrene"], ["10860-7f"]⟩,
  ⟨["pauc", "paucinhau"], ["11ac0-f8"]⟩,
  ⟨["perm", "oldpermic"], ["10350-7a"]⟩,
  ⟨["phag", "phagspa"], ["a840-77"]⟩,
  ⟨["phli", "inscriptionalpahlavi"], ["10b60-72 78-7f"]⟩,
  ⟨["phlp", "psalterpahlavi"], ["10b80-91 99-9c a9-af"]⟩,
  ⟨["phnx", "phoenician"], ["10900-1b 1f"]⟩,
  ⟨["plrd", "miao"], ["16f00-4a 4f-87 8f-9f"]⟩,
  ⟨["prti", "inscriptionalparthian"], ["10b40-55 58-5f"]⟩,
  ⟨["rjng", "rejang"], ["a930-53 5f"]⟩,
  ⟨["rohg", "hanifirohingya"], ["10d00-27 30-39"]⟩,
  ⟨["runr", "runic"], ["16a0-ea ee-f8"]⟩,
  ⟨["samr", "samaritan"], ["800-2d 30-3e"]⟩,
  ⟨["sarb", "oldsoutharabian"], ["10a60-7f"]⟩,
  ⟨["saur", "saurashtra"], ["a880-c5 ce-d9"]⟩,
  ⟨["sgnw", "signwriting"], ["1d800-1da8b 9b-9f a1-af"]⟩,
  ⟨["shaw", "shavian"], ["10450-7f"]⟩,
  ⟨["shrd", "sharada"], ["11180-df"]⟩,
  ⟨["sidd", "siddham"], ["11580-b5 b8-dd"]⟩,
  ⟨["sind", "khudawadi"], ["112b0-ea f0-f9"]⟩,
  ⟨["sinh", "sinhala"],
    ["d81-83 85-96 9a-b1 b3-bb bd c0-c6 ca cf-d4 d6 d8-df e6-ef f2-f4 111e1-f4"]⟩,
  ⟨["sogd", "sogdian"], ["10f30-59"]⟩,
  ⟨["sogo", "oldsogdian"], ["10f00-27"]⟩,
  ⟨["sora", "sorasompeng"], ["110d0-e8 f0-f9"]⟩,
  ⟨["soyo", "soyombo"], ["11a50-a2"]⟩,
  ⟨["sund", "sundanese"], ["1b80-bf 1cc0-c7"]⟩,
  ⟨["sylo", "sylotinagri"], ["a800-2c"]⟩,
  ⟨["syrc", "syriac"], ["700-d f-4a 4d-4f 860-6a"]⟩,
  ⟨["tagb", "tagbanwa"], ["1760-6c 6e-70 72-73"]⟩,
  ⟨["takr", "takri"], ["11680-b9 c0-c9"]⟩,
  ⟨["tale", "taile"], ["1950-6d 70-74"]⟩,
  ⟨["talu", "newtailue"], ["1980-ab b0-c9 d0-da de-df"]⟩,
  ⟨["taml", "tamil"],
    ["b82-83 85-8a 8e-90 92-95 99-9a 9c 9e-9f a3-a4 a8-aa ae-b9 be-c2 c6-c8 ca-cd d0 d7 e6-fa",
     "11fc0-f1 ff"]⟩,
  ⟨["tang", "tangut"], ["16fe0 17000-187f7 18800-18aff 18d00-8"]⟩,
  ⟨["tavt", "taiviet"], ["aa80-c2 db-df"]⟩,
  ⟨["telu", "telugu"],
    ["c00-c e-10 12-28 2a-39 3c-44 46-48 4a-4d 55-56 58-5a 5d 60-63 66-6f 77-7f"]⟩,
  ⟨["tfng", "tifinagh"], ["2d30-67 6f-70 7f"]⟩,
  ⟨["tglg", "tagalog"], ["1700-15 1f"]⟩,
  ⟨["thaa", "thaana"], ["780-b1"]⟩,
  ⟨["thai"], ["e01-3a 40-5b"]⟩,
  ⟨["tibt", "tibetan"], ["f00-47 49-6c 71-97 99-bc be-cc ce-d4 d9-da"]⟩,
  ⟨["tirh", "tirhuta"], ["11480-c7 d0-d9"]⟩,
  ⟨["tnsa", "tangsa"], ["16a70-be c0-c9"]⟩,
  ⟨["toto"], ["1e290-ae"]⟩,
  ⟨["ugar", "ugaritic"], ["10380-9d 9f"]⟩,
  ⟨["vaii", "vai"], ["a500-a62b"]⟩,
  ⟨["vith", "vithkuqi"], ["10570-7a 7c-8a 8c-92 94-95 97-a1 a3-b1 b3-b9 bb-bc"]⟩,
  ⟨["wara", "warangciti"], ["118a0-f2 ff"]⟩,
  ⟨["wcho", "wancho"], ["1e2c0-f9 ff"]⟩,
  ⟨["xpeo", "oldpersian"], ["103a0-c3 c8-d5"]⟩,
  ⟨["xsux", "cuneiform"], ["12000-12399 12400-6e 70-74 80-12543"]⟩,
  ⟨["yezi", "yezidi"], ["10e80-a9 ab-ad b0-b1"]⟩,
  ⟨["yiii", "yi"], ["a000-a48c 90-c6"]⟩,
  ⟨["zanb", "zanabazarsquare"], ["11a00-47"]⟩,
  ⟨["zinh", "inherited", "qaai"],
    ["300-6f 485-86 64b-55 70 951-54 1ab0-ce 1cd0-d2 d4-e0 e2-e8 ed f4 f8-f9 1dc0-ff 200c-d d0-f0",
     "302a-2d 99-9a fe00-f 20-2d 101fd 102e0 1133b 1cf00-2d 30-46 1d167-69 7b-82 85-8b aa-ad",
     "e0100-ef"]⟩,
  ⟨["zyyy", "common"],
    ["0-40 5b-60 7b-a9 ab-b9 bb-bf d7 f7 2b9-df e5-e9 ec-ff 374 7e 85 87 605 c 1b 1f 40 dd 8e2",
     "964-65 e3f fd5-d8 10fb 16eb-ed 1735-36 1802-3 5 1cd3 e1 e9-ec ee-f3 f5-f7 fa 2000-b e-64",
     "66-70 74-7e 80-8e a0-c0 2100-25 27-29 2c-31 33-4d 4f-5f 89-8b 90-2426 40-4a 60-27ff",
     "2900-2b73 76-95 97-ff 2e00-5d 2ff0-fb 3000-4 6 8-20 30-37 3c-3f 9b-9c a0 fb-fc 3190-9f c0-e3",
     "3220-5f 7f-cf ff 3358-ff 4dc0-ff a700-21 88-8a a830-39 a92e cf ab5b 6a-6b fd3e-3f fe10-19",
     "30-52 54-66 68-6b ff ff01-20 3b-40 5b-65 70 9e-9f e0-e6 e8-ee f9-fd 10100-2 7-33 37-3f 90-9c",
     "d0-fc 102e1-fb 1bca0-a3 1cf50-c3 1d000-f5 1d100-26 29-66 6a-7a 83-84 8c-a9 ae-ea 1d2c0-d3",
     "e0-f3 1d300-56 60-78 1d400-54 56-9c 9e-9f a2 a5-a6 a9-ac ae-b9 bb bd-c3 c5-1d505 7-a d-14",
     "16-1c 1e-39 3b-3e 40-44 46 4a-50 52-1d6a5 a8-1d7cb ce-ff 1ec71-b4 1ed01-3d 1f000-2b 30-93",
     "a0-ae b1-bf c1-cf d1-f5 1f100-ad e6-ff 1f201-2 10-3b 40-48 50-51 60-65 1f300-1f6d7 dc-ec",
     "f0-fc 1f700-76 7b-d9 e0-eb f0 1f800-b 10-47 50-59 60-87 90-ad b0-b1 1f900-1fa53 60-6d 70-7c",
     "80-88 90-bd bf-c5 ce-db e0-e8 f0-f8 1fb00-92 94-ca f0-f9 e0001 20-7f"]⟩]

end Workflow.Text
