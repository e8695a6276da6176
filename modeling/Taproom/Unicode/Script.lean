import Taproom.Unicode.Ranges

/-!
The scripts that characters belong to, as version 17 of the Unicode standard assigns them.
-/

namespace Taproom.Unicode

/-- The scripts and the characters in each. No character is in two of them. -/
def scriptTable : List (String × String) :=
  [("Adlam", "1e900-4b 50-9 e-f"),
   ("Ahom", "11700-1a d-2b 30-46"),
   ("Anatolian_Hieroglyphs", "14400-646"),
   ("Arabic",
    "600-4 6-b d-1a c-e 20-3f 41-a 56-6f 71-dc e-ff 750-7f 870-91 7-e1 3-ff fb50-d3d 40-cf f0-f
    e70-4 6-fc 10e60-7e c2-7 d0-8 fa-f ee00-3 5-1f 21-2 4 7 9-32 4-7 9 b 42 7-b/2 d-f 51-2 4 7-f/2
    61-2 4 7-a c-72 4-7 9-c e 80-9 b-9b a1-3 5-9 b-bb f0-1"),
   ("Armenian", "531-56 9-8a d-f fb13-7"),
   ("Avestan", "10b00-35 9-f"),
   ("Balinese", "1b00-4c e-7f"),
   ("Bamum", "a6a0-f7 16800-a38"),
   ("Bassa_Vah", "16ad0-ed f0-5"),
   ("Batak", "1bc0-f3 c-f"),
   ("Bengali", "980-3 5-c f-90 3-a8 a-b0 2 6-9 c-c4 7-8 b-e d7 c-d f-e3 6-fe"),
   ("Beria_Erfe", "16ea0-b8 b-d3"),
   ("Bhaiksuki", "11c00-8 a-36 8-45 50-6c"),
   ("Bopomofo", "2ea-b 3105-2f a0-bf"),
   ("Brahmi", "11000-4d 52-75 f"),
   ("Braille", "2800-ff"),
   ("Buginese", "1a00-1b e-f"),
   ("Buhid", "1740-53"),
   ("Canadian_Aboriginal", "1400-67f 8b0-f5 11ab0-f"),
   ("Carian", "102a0-d0"),
   ("Caucasian_Albanian", "10530-63 f"),
   ("Chakma", "11100-34 6-47"),
   ("Cham", "aa00-36 40-d 50-9 c-f"),
   ("Cherokee", "13a0-f5 8-d ab70-bf"),
   ("Chorasmian", "10fb0-cb"),
   ("Common",
    "0-40 5b-60 7b-a9 b-b9 b-f d7 f7 2b9-df e5-9 c-ff 374 e 85 7 605 c 1b f 40 dd 8e2 964-5 e3f
    fd5-8 10fb 6eb-d 735-6 802-3 5 cd3 e1 9-c e-f3 5-7 a 2000-b e-64 6-70 4-e 80-e a0-c1 100-25 7-9
    c-31 3-4d f-5f 89-b 90-429 40-a 60-7ff 900-b73 6-ff e00-5d ff0-3004 6 8-20 30-7 c-f 9b-c a0
    fb-c 190-f c0-e5 f 220-5f 7f-cf ff 358-ff 4dc0-ff a700-21 88-a 830-9 92e cf b5b 6a-b fd3e-f
    e10-9 30-52 4-66 8-b ff f01-20 3b-40 5b-65 70 9e-f e0-6 8-e f9-d 10100-2 7-33 7-f 90-c d0-fc
    2e1-fb bca0-3 cc00-fc d00-eb3 a-d0 e0-f0 f50-c3 d000-f5 100-26 9-66 a-7a 83-4 c-a9 e-ea 2c0-d3
    e0-f3 300-56 60-78 400-54 6-9c e-f a2 5-6 9-c e-b9 b d-c3 5-505 7-a d-14 6-c e-39 b-e 40-4 6
    a-50 2-6a5 8-7cb e-ff ec71-b4 d01-3d f000-2b 30-93 a0-e b1-f c1-f d1-f5 100-ad e6-ff 201-2
    10-3b 40-8 50-1 60-5 300-6d8 c-ec f0-c 700-d9 e0-b f0 800-b 10-47 50-9 60-87 90-ad b0-b c0-1
    d0-8 900-a57 60-d 70-c 80-a e-c6 8 d-dc f-ea f-f8 b00-92 4-fa e0001 20-7f"),
   ("Coptic", "3e2-f 2c80-f3 9-f"),
   ("Cuneiform", "12000-399 400-6e 70-4 80-543"),
   ("Cypriot", "10800-5 8 a-35 7-8 c f"),
   ("Cypro_Minoan", "12f90-f2"),
   ("Cyrillic", "400-84 7-52f 1c80-a d2b 78 2de0-ff a640-9f fe2e-f 1e030-6d 8f"),
   ("Deseret", "10400-4f"),
   ("Devanagari", "900-50 5-63 6-7f a8e0-ff 11b00-9"),
   ("Dives_Akuru", "11900-6 9 c-13 5-6 8-35 7-8 b-46 50-9"),
   ("Dogra", "11800-3b"),
   ("Duployan", "1bc00-6a 70-c 80-8 90-9 c-f"),
   ("Egyptian_Hieroglyphs", "13000-455 60-43fa"),
   ("Elbasan", "10500-27"),
   ("Elymaic", "10fe0-f6"),
   ("Ethiopic",
    "1200-48 a-d 50-6 8 a-d 60-88 a-d 90-b0 2-5 8-e c0 2-5 8-d6 8-310 2-5 8-5a d-7c 80-99 2d80-96
    a0-6 8-e b0-6 8-e c0-6 8-e d0-6 8-e ab01-6 9-e 11-6 20-6 8-e 1e7e0-6 8-b d-e f0-e"),
   ("Garay", "10d40-65 9-85 e-f"),
   ("Georgian", "10a0-c5 7 d d0-fa c-f c90-ba d-f 2d00-25 7 d"),
   ("Glagolitic", "2c00-5f 1e000-6 8-18 b-21 3-4 6-a"),
   ("Gothic", "10330-4a"),
   ("Grantha", "11300-3 5-c f-10 3-28 a-30 2-3 5-9 c-44 7-8 b-d 50 7 d-63 6-c 70-4"),
   ("Greek",
    "370-3 5-7 a-d f 84 6 8-a c e-a1 3-e1 f0-f 1d26-a 5d-61 6-a bf f00-15 8-d 20-45 8-d 50-7 9-d/2
    f-7d 80-b4 6-c4 6-d3 6-b d-ef f2-4 6-e 2126 ab65 10140-8e a0 d200-45"),
   ("Gujarati", "a81-3 5-d f-91 3-a8 a-b0 2-3 5-9 c-c5 7-9 b-d d0 e0-3 6-f1 9-f"),
   ("Gunjala_Gondi", "11d60-5 7-8 a-8e 90-1 3-8 a0-9"),
   ("Gurmukhi", "a01-3 5-a f-10 3-28 a-30 2-3 5-6 8-9 c e-42 7-8 b-d 51 9-c e 66-76"),
   ("Gurung_Khema", "16100-39"),
   ("Han",
    "2e80-99 b-f3 f00-d5 3005 7 21-9 38-b 400-4dbf e00-9fff f900-a6d 70-d9 16fe2-3 f0-6 20000-a6df
    700-b81d 20-cead b0-ebe0 f0-e5d f800-a1d 30000-134a 50-3479"),
   ("Hangul",
    "1100-ff 302e-f 131-8e 200-1e 60-7e a960-7c c00-d7a3 b0-c6 b-fb ffa0-be c2-7 a-f d2-7 a-c"),
   ("Hanifi_Rohingya", "10d00-27 30-9"),
   ("Hanunoo", "1720-34"),
   ("Hatran", "108e0-f2 4-5 b-f"),
   ("Hebrew", "591-c7 d0-ea f-f4 fb1d-36 8-c e 40-1 3-4 6-f"),
   ("Hiragana", "3041-96 d-f 1b001-11f 32 50-2 f200"),
   ("Imperial_Aramaic", "10840-55 7-f"),
   ("Inherited",
    "300-6f 485-6 64b-55 70 951-4 1ab0-dd e0-b cd0-2 4-e0 2-8 d f4 8-9 dc0-ff 200c-d d0-f0 302a-d
    99-a fe00-f 20-d 101fd 2e0 133b cf00-2d 30-46 d167-9 7b-82 5-b aa-d e0100-ef"),
   ("Inscriptional_Pahlavi", "10b60-72 8-f"),
   ("Inscriptional_Parthian", "10b40-55 8-f"),
   ("Javanese", "a980-cd d0-9 e-f"),
   ("Kaithi", "11080-c2 d"),
   ("Kannada", "c80-c e-90 2-a8 a-b3 5-9 c-c4 6-8 a-d d5-6 c-e e0-3 6-f f1-3"),
   ("Katakana", "30a1-fa d-f 1f0-f 2d0-fe 300-57 ff66-f 71-9d 1aff0-3 5-b d-e b000 120-2 55 64-7"),
   ("Kawi", "11f00-10 2-3a e-5a"),
   ("Kayah_Li", "a900-2d f"),
   ("Kharoshthi", "10a00-3 5-6 c-13 5-7 9-35 8-a f-48 50-8"),
   ("Khitan_Small_Script", "16fe4 8b00-cd5 ff"),
   ("Khmer", "1780-dd e0-9 f0-9 9e0-ff"),
   ("Khojki", "11200-11 3-41"),
   ("Khudawadi", "112b0-ea f0-9"),
   ("Kirat_Rai", "16d40-79"),
   ("Lao", "e81-2 4 6-a c-a3 5 7-bd c0-4 6 8-e d0-9 c-f"),
   ("Latin",
    "41-5a 61-7a aa ba c0-d6 8-f6 8-2b8 e0-4 1d00-25 c-5c 62-5 b-77 9-be e00-ff 2071 f 90-c 12a-b 32
    4e 60-88 c60-7f a722-87 b-dc f1-f b30-5a c-64 6-9 fb00-6 f21-3a 41-5a 10780-5 7-b0 2-a df00-1e
    25-a"),
   ("Lepcha", "1c00-37 b-49 d-f"),
   ("Limbu", "1900-1e 20-b 30-b 40 4-f"),
   ("Linear_A", "10600-736 40-55 60-7"),
   ("Linear_B", "10000-b d-26 8-3a c-d f-4d 50-d 80-fa"),
   ("Lisu", "a4d0-ff 11fb0"),
   ("Lycian", "10280-9c"),
   ("Lydian", "10920-39 f"),
   ("Mahajani", "11150-76"),
   ("Makasar", "11ee0-f8"),
   ("Malayalam", "d00-c e-10 2-44 6-8 a-f 54-63 6-7f"),
   ("Mandaic", "840-5b e"),
   ("Manichaean", "10ac0-e6 b-f6"),
   ("Marchen", "11c70-8f 92-a7 9-b6"),
   ("Masaram_Gondi", "11d00-6 8-9 b-36 a c-d f-47 50-9"),
   ("Medefaidrin", "16e40-9a"),
   ("Meetei_Mayek", "aae0-f6 bc0-ed f0-9"),
   ("Mende_Kikakui", "1e800-c4 7-d6"),
   ("Meroitic_Cursive", "109a0-b7 c-cf d2-ff"),
   ("Meroitic_Hieroglyphs", "10980-9f"),
   ("Miao", "16f00-4a f-87 f-9f"),
   ("Modi", "11600-44 50-9"),
   ("Mongolian", "1800-1 4 6-19 20-78 80-aa 11660-c"),
   ("Mro", "16a40-5e 60-9 e-f"),
   ("Multani", "11280-6 8 a-d f-9d f-a9"),
   ("Myanmar", "1000-9f a9e0-fe a60-7f 116d0-e3"),
   ("Nabataean", "10880-9e a7-f"),
   ("Nag_Mundari", "1e4d0-f9"),
   ("Nandinagari", "119a0-7 a-d7 a-e4"),
   ("New_Tai_Lue", "1980-ab b0-c9 d0-a e-f"),
   ("Newa", "11400-5b d-61"),
   ("Nko", "7c0-fa d-f"),
   ("Nushu", "16fe1 b170-2fb"),
   ("Nyiakeng_Puachue_Hmong", "1e100-2c 30-d 40-9 e-f"),
   ("Ogham", "1680-9c"),
   ("Ol_Chiki", "1c50-7f"),
   ("Ol_Onal", "1e5d0-fa f"),
   ("Old_Hungarian", "10c80-b2 c0-f2 a-f"),
   ("Old_Italic", "10300-23 d-f"),
   ("Old_North_Arabian", "10a80-9f"),
   ("Old_Permic", "10350-7a"),
   ("Old_Persian", "103a0-c3 8-d5"),
   ("Old_Sogdian", "10f00-27"),
   ("Old_South_Arabian", "10a60-7f"),
   ("Old_Turkic", "10c00-48"),
   ("Old_Uyghur", "10f70-89"),
   ("Oriya", "b01-3 5-c f-10 3-28 a-30 2-3 5-9 c-44 7-8 b-d 55-7 c-d f-63 6-77"),
   ("Osage", "104b0-d3 8-fb"),
   ("Osmanya", "10480-9d a0-9"),
   ("Pahawh_Hmong", "16b00-45 50-9 b-61 3-77 d-8f"),
   ("Palmyrene", "10860-7f"),
   ("Pau_Cin_Hau", "11ac0-f8"),
   ("Phags_Pa", "a840-77"),
   ("Phoenician", "10900-1b f"),
   ("Psalter_Pahlavi", "10b80-91 9-c a9-f"),
   ("Rejang", "a930-53 f"),
   ("Runic", "16a0-ea e-f8"),
   ("Samaritan", "800-2d 30-e"),
   ("Saurashtra", "a880-c5 e-d9"),
   ("Sharada", "11180-df b60-7"),
   ("Shavian", "10450-7f"),
   ("Siddham", "11580-b5 8-dd"),
   ("Sidetic", "10940-59"),
   ("SignWriting", "1d800-a8b 9b-f a1-f"),
   ("Sinhala", "d81-3 5-96 a-b1 3-b d c0-6 a f-d4 6 8-f e6-f f2-4 111e1-f4"),
   ("Sogdian", "10f30-59"),
   ("Sora_Sompeng", "110d0-e8 f0-9"),
   ("Soyombo", "11a50-a2"),
   ("Sundanese", "1b80-bf cc0-7"),
   ("Sunuwar", "11bc0-e1 f0-9"),
   ("Syloti_Nagri", "a800-2c"),
   ("Syriac", "700-d f-4a d-f 860-a"),
   ("Tagalog", "1700-15 f"),
   ("Tagbanwa", "1760-c e-70 2-3"),
   ("Tai_Le", "1950-6d 70-4"),
   ("Tai_Tham", "1a20-5e 60-7c f-89 90-9 a0-d"),
   ("Tai_Viet", "aa80-c2 db-f"),
   ("Tai_Yo", "1e6c0-de e0-f5 e-f"),
   ("Takri", "11680-b9 c0-9"),
   ("Tamil", "b82-3 5-a e-90 2-5 9-a c e-f a3-4 8-a e-b9 e-c2 6-8 a-d d0 7 e6-fa 11fc0-f1 f"),
   ("Tangsa", "16a70-be c0-9"),
   ("Tangut", "16fe0 7000-8aff d00-1e 80-f2"),
   ("Telugu", "c00-c e-10 2-28 a-39 c-44 6-8 a-d 55-6 8-a c-d 60-3 6-f 77-f"),
   ("Thaana", "780-b1"),
   ("Thai", "e01-3a 40-5b"),
   ("Tibetan", "f00-47 9-6c 71-97 9-bc e-cc e-d4 9-a"),
   ("Tifinagh", "2d30-67 f-70 f"),
   ("Tirhuta", "11480-c7 d0-9"),
   ("Todhri", "105c0-f3"),
   ("Tolong_Siki", "11db0-db e0-9"),
   ("Toto", "1e290-ae"),
   ("Tulu_Tigalari", "11380-9 b e 90-b5 7-c0 2 5 7-a c-d5 7-8 e1-2"),
   ("Ugaritic", "10380-9d f"),
   ("Vai", "a500-62b"),
   ("Vithkuqi", "10570-a c-8a c-92 4-5 7-a1 3-b1 3-9 b-c"),
   ("Wancho", "1e2c0-f9 f"),
   ("Warang_Citi", "118a0-f2 f"),
   ("Yezidi", "10e80-a9 b-d b0-1"),
   ("Yi", "a000-48c 90-c6"),
   ("Zanabazar_Square", "11a00-47")]

end Taproom.Unicode
