import Taproom.Unicode.Ranges

/-!
The general categories of characters, as version 17 of the Unicode standard assigns them.
-/

namespace Taproom.Unicode

/-- The categories of two letters and the characters in each. No character is in two of them. -/
def categoryTable : List (String × String) :=
  [("Cc", "0-1f 7f-9f"),
   ("Cf",
    "ad 600-5 1c dd 70f 890-1 e2 180e 200b-f 2a-e 60-4 6-f feff ff9-b 110bd cd 3430-f bca0-3 d173-a
    e0001 20-7f"),
   ("Co", "e000-f8ff f0000-fffd 100000-fffd"),
   ("Cs", "d800-fff"),
   ("Ll",
    "61-7a b5 df-f6 8-f 101-35/2 7-8 a-46/2 8-9 b-77/2 a c e-80 3 5 8 c-d 92 5 9-b e a1-5/2 8 a-b d
    b0 4 6 9-a d-f c6 9 c-da/2 c-d f-ed/2 f-f0 3 5 9-231/2 3-9 c f-40 2 7-d/2 f-93 6-af 371 3 7 b-d
    90 ac-ce d0-1 5-7 9-ed/2 f-f3 5 8 b-c 430-5f 61-81/2 b-bf/2 c2-c/2 e-f d1-52f/2 60-88 10d0-fa
    d-f 3f8-d c80-8 a d00-2b 6b-77 9-9a e01-93/2 5-d f-fd/2 f-f07 10-5 20-7 30-7 40-5 50-7 60-7
    70-d 80-7 90-7 a0-7 b0-4 6-7 e c2-4 6-7 d0-3 6-7 e0-7 f2-4 6-7 210a e-f 13 2f 34 9 c-d 46-9 e
    84 c30-5f 61 5-6 8-c/2 71 3-4 6-b 81-e1/2 3-4 c e f3 d00-25 7 d a641-6d/2 81-9b/2 723-d/2 f-31
    3-6f/2 71-8 a c f-87/2 c e 91 3-5 7-a9/2 f b5-c3/2 8 a d-db/2 f6 a b30-5a 60-8 70-bf fb00-6
    13-7 f41-5a 10428-4f d8-fb 597-a1 3-b1 3-9 b-c cc0-f2 d70-85 18c0-df 6e60-7f bb-d3 d41a-33
    4e-54 6-67 82-9b b6-9 b d-c3 5-f ea-503 1e-37 52-6b 86-9f ba-d3 ee-607 22-3b 56-6f 8a-a5 c2-da
    c-e1 fc-714 6-b 36-4e 50-5 70-88 a-f aa-c2 4-9 b f00-9 b-1e 25-a e922-43"),
   ("Lm",
    "2b0-c1 6-d1 e0-4 c e 374 a 559 640 e5-6 7f4-5 a 81a 24 8 c9 971 e46 c6 10fc 7d7 843 aa7 c78-d
    d2c-6a 78 9b-bf 2071 f 90-c c7c-d d6f e2f 3005 31-5 b 9d-e fc-e a015 4f8-d 60c 7f 9c-d 717-f 70
    88 f1-4 8-9 9cf e6 a70 dd f3-4 b5c-f 69 ff70 9e-f 10780-5 7-b0 2-a d4e 6f ec5 1dd9 6b40-3 d40-2
    6b-c f93-f e0-1 3 f2-3 aff0-3 5-b d-e e030-6d 137-d 4eb 6ff 94b"),
   ("Lo",
    "aa ba 1bb c0-3 294-5 5d0-ea f-f2 620-3f 41-a 6e-f 71-d3 5 ee-f fa-c f 710 2-2f 4d-a5 b1 ca-ea
    800-15 40-58 60-a 70-87 9-f a0-c8 904-39 d 50 8-61 72-80 5-c f-90 3-a8 a-b0 2 6-9 d ce dc-d
    f-e1 f0-1 c a05-a f-10 3-28 a-30 2-3 5-6 8-9 59-c e 72-4 85-d f-91 3-a8 a-b0 2-3 5-9 d d0 e0-1
    f9 b05-c f-10 3-28 a-30 2-3 5-9 d 5c-d f-61 71 83 5-a e-90 2-5 9-a c e-f a3-4 8-a e-b9 d0 c05-c
    e-10 2-28 a-39 d 58-a c-d 60-1 80 5-c e-90 2-a8 a-b3 5-9 d dc-e e0-1 f1-2 d04-c e-10 2-3a d 4e
    54-6 f-61 7a-f 85-96 a-b1 3-b d c0-6 e01-30 2-3 40-5 81-2 4 6-a c-a3 5 7-b0 2-3 d c0-4 dc-f f00
    40-7 9-6c 88-c 1000-2a 3f 50-5 a-d 61 5-6 e-70 5-81 e 100-248 a-d 50-6 8 a-d 60-88 a-d 90-b0
    2-5 8-e c0 2-5 8-d6 8-310 2-5 8-5a 80-f 401-66c f-7f 81-9a a0-ea f1-8 700-11 f-31 40-51 60-c
    e-70 80-b3 dc 820-42 4-78 80-4 7-a8 a b0-f5 900-1e 50-6d 70-4 80-ab b0-c9 a00-16 20-54 b05-33
    45-c 83-a0 e-f ba-e5 c00-23 4d-f 5a-77 e9-c e-f3 5-6 a 2135-8 d30-67 80-96 a0-6 8-e b0-6 8-e
    c0-6 8-e d0-6 8-e 3006 3c 41-96 f a1-fa f 105-2f 31-8e a0-bf f0-f 400-4dbf e00-a014 6-48c d0-f7
    500-60b 10-f 2a-b 6e a0-e5 78f f7 b-801 3-5 7-a c-22 40-73 82-b3 f2-7 b d-e 90a-25 30-46 60-7c
    84-b2 e0-4 7-f fa-e a00-28 40-2 4-b 60-f 71-6 a e-af b1 5-6 9-d c0 2 db-c e0-a f2 b01-6 9-e
    11-6 20-6 8-e c0-e2 c00-d7a3 b0-c6 b-fb f900-a6d 70-d9 b1d f-28 a-36 8-c e 40-1 3-4 6-b1 d3-d3d
    50-8f 92-c7 f0-b e70-4 6-fc f66-f 71-9d a0-be c2-7 a-f d2-7 a-c 10000-b d-26 8-3a c-d f-4d 50-d
    80-fa 280-9c a0-d0 300-1f 2d-40 2-9 50-75 80-9d a0-c3 8-f 450-9d 500-27 30-63 c0-f3 600-736
    40-55 60-7 800-5 8 a-35 7-8 c f-55 60-76 80-9e e0-f2 4-5 900-15 20-39 40-59 80-b7 e-f a00 10-3
    5-7 9-35 60-7c 80-9c c0-7 9-e4 b00-35 40-55 60-72 80-91 c00-48 d00-23 4a-d f e80-a9 b0-1 c2-4
    6-7 f00-1c 27 30-45 70-81 b0-c4 e0-f6 1003-37 71-2 5 83-af d0-e8 103-26 44 7 50-72 6 83-b2 c1-4
    da c 200-11 3-2b 3f-40 80-6 8 a-d f-9d f-a8 b0-de 305-c f-10 3-28 a-30 2-3 5-9 d 50 d-61 80-9 b
    e 90-b5 7 d1 3 400-34 47-a 5f-61 80-af c4-5 7 580-ae d8-b 600-2f 44 80-aa b8 700-1a 40-6 800-2b
    ff-906 9 c-13 5-6 8-2f 3f 41 a0-7 a-d0 e1 3 a00 b-32 a 50 c-89 9d b0-f8 bc0-e0 c00-8 a-2e 40
    72-8f d00-6 8-9 b-30 46 60-5 7-8 a-89 98 b0-d8 a-b ee0-f2 f02 4-10 2-33 b0 2000-399 480-543
    f90-f0 3000-42f 41-6 60-43fa 400-646 6100-1d 800-a38 40-5e 70-be d0-ed b00-2f 63-77 d-8f d43-6a
    f00-4a 50 7000-8cd5 ff-d1e 80-f2 b000-122 32 50-2 5 64-7 70-2fb c00-6a 70-c 80-8 90-9 df0a
    e100-2c 4e 290-ad c0-eb 4d0-ea 5d0-ed f0 6c0-de e0-2 4-5 7-d f0-4 e 7e0-6 8-b d-e f0-e 800-c4
    e00-3 5-1f 21-2 4 7 9-32 4-7 9 b 42 7-b/2 d-f 51-2 4 7-f/2 61-2 4 7-a c-72 4-7 9-c e 80-9 b-9b
    a1-3 5-9 b-bb 20000-a6df 700-b81d 20-cead b0-ebe0 f0-e5d f800-a1d 30000-134a 50-3479"),
   ("Lt", "1c5 8 b f2 1f88-f 98-f a8-f bc cc fc"),
   ("Lu",
    "41-5a c0-d6 8-e 100-36/2 9-47/2 a-76/2 8-9 b d 81-2 4 6-7 9-b e-91 3-4 6-8 c-d f-a0 2 4 6-7 9 c
    e-f b1-3 5 7-8 c c4 7 a d-db/2 e-ee/2 f1 4 6-8 a-232/2 a-b d-e 41 3-6 8-e/2 370 2 6 f 86 8-a c
    e-f 91-a1 3-b cf d2-4 8-ee/2 f4 7 9-a d-42f 60-80/2 a-be/2 c0-1 3-d/2 d0-52e/2 31-56 10a0-c5 7
    d 3a0-f5 c89 90-ba d-f e00-94/2 e-fe/2 f08-f 18-d 28-f 38-f 48-d 59-f/2 68-f b8-b c8-b d8-b
    e8-c f8-b 2102 7 b-d 10-2 5 9-d 24-8/2 a-d 30-3 e-f 45 83 c00-2f 60 2-4 7-b/2 d-70 2 5 e-80
    2-e2/2 b d f2 a640-6c/2 80-9a/2 722-e/2 32-6e/2 79 b d-e 80-6/2 b d 90 2 6-a8/2 a-e b0-4 6-c2/2
    4-7 9 b-c e-dc/2 f5 ff21-3a 10400-27 b0-d3 570-a c-8a c-92 4-5 c80-b2 d50-65 18a0-bf 6e40-5f
    a0-b8 d400-19 34-4d 68-81 9c e-f a2 5-6 9-c e-b5 d0-e9 504-5 7-a d-14 6-c 38-9 b-e 40-4 6 a-50
    6c-85 a0-b9 d4-ed 608-21 3c-55 70-89 a8-c0 e2-fa 71c-34 56-6e 90-a8 ca e900-21"),
   ("Mc",
    "903 3b e-40 9-c e-f 82-3 be-c0 7-8 b-c d7 a03 3e-40 83 be-c0 9 b-c b02-3 3e 40 7-8 b-c 57 be-f
    c1-2 6-8 a-c d7 c01-3 41-4 82-3 be c0-4 7-8 a-b d5-6 f3 d02-3 3e-40 6-8 a-c 57 82-3 cf-d1 8-f
    f2-3 f3e-f 7f 102b-c 31 8 b-c 56-7 62-4 7-d 83-4 7-c f 9a-c 715 34 b6 e-c5 7-8 923-6 9-b 30-1
    3-8 a19-a 55 7 61 3-4 d-72 b04 35 b d-41 3-4 82 a1 6-7 a e7 a-c e f2-3 c24-b 34-5 e1 f7 302e-f
    a823-4 7 80-1 b4-c3 952-3 83 b4-5 a-b e-c0 a2f-30 3-4 4d 7b d eb e-f f5 be3-4 6-7 9-a c 11000 2
    82 b0-2 7-8 12c 45-6 82 b3-5 f-c0 e 22c-e 32-3 5 e0-2 302-3 3e-f 41-4 7-8 b-d 57 62-3 b8-a c2 5
    7-a c-d f 435-7 40-1 5 b0-2 9 b-e c1 5af-b1 8-b e 630-2 b-c e ac e-f b6 71e 20-1 6 82c-e 38
    930-5 7-8 d 40 2 d1-3 c-f e4 a39 57-8 97 b61 5 7 c2f 3e a9 b1 4 d8a-e 93-4 6 ef5-6 f03 34-5 e-f
    41 612a-c f51-87 f0-1 d165-6 d-72"),
   ("Me", "488-9 1abe 20dd-e0 2-4 a670-2"),
   ("Mn",
    "300-6f 483-7 591-bd f c1-2 4-5 7 610-a 4b-5f 70 d6-c f-e4 7-8 a-d 711 30-4a a6-b0 eb-f3 d 816-9
    b-23 5-7 9-d 59-b 97-f ca-e1 3-902 3a c 41-8 d 51-7 62-3 81 bc c1-4 d e2-3 fe a01-2 3c 41-2 7-8
    b-d 51 70-1 5 81-2 bc c1-5 7-8 d e2-3 fa-f b01 3c f 41-4 d 55-6 62-3 82 c0 d c00 4 3c e-40 6-8
    a-d 55-6 62-3 81 bc f c6 c-d e2-3 d00-1 3b-c 41-4 d 62-3 81 ca d2-4 6 e31 4-a 47-e b1 4-c c8-e
    f18-9 35-9/2 71-e 80-4 6-7 d-97 9-bc c6 102d-30 2-7 9-a d-e 58-9 e-60 71-4 82 5-6 d 9d 35d-f
    712-4 32-3 52-3 72-3 b4-5 7-d c6 9-d3 d 80b-d f 85-6 a9 920-2 7-8 32 9-b a17-8 b 56 8-e 60 2
    5-c 73-c f b0-d f-dd e0-b b00-3 34 6-a c 42 6b-73 80-1 a2-5 8-9 b-d e6 8-9 d f-f1 c2c-33 6-7
    d0-2 4-e0 2-8 d f4 8-9 dc0-ff 20d0-c e1 5-f0 cef-f1 d7f e0-ff 302a-d 99-a a66f 74-d 9e-f f0-1
    802 6 b 25-6 c c4-5 e0-f1 f 926-d 47-51 80-2 b3 6-9 c-d e5 a29-e 31-2 5-6 43 c 7c b0 2-4 7-8
    e-f c1 ec-d f6 be5 8 d fb1e e00-f 20-f 101fd 2e0 376-a a01-3 5-6 c-f 38-a f e5-6 d24-7 69-d
    eab-c fa-f f46-50 82-5 1001 38-46 70 3-4 f-81 b3-6 9-a c2 100-2 27-b d-34 73 80-1 b6-e c9-c f
    22f-31 4 6-7 e 41 df e3-a 300-1 3b-c 40 66-c 70-4 bb-c0 e-d2/2 e1-2 438-f 42-4 6 5e b3-8 a f-c0
    2-3 5b2-5 c-d f-c0 dc-d 633-a d f-40 ab d b0-5 7 71d f 22-5 7-b 82f-37 9-a 93b-c e 43 d4-7 a-b
    e0 a01-a 33-8 b-e 47 51-6 9-b 8a-96 8-9 b60 2-4 6 c30-6 8-d f 92-a7 a-b0 2-3 5-6 d31-6 a c-d
    f-45 7 90-1 5 7 ef3-4 f00-1 36-a 40 2 5a 3440 7-55 611e-29 d-f af0-4 b30-6 f4f 8f-92 e4 bc9d-e
    cf00-2d 30-46 d167-9 7b-82 5-b aa-d 242-4 a00-36 b-6c 75 84 9b-f a1-f e000-6 8-18 b-21 3-4 6-a
    8f 130-6 2ae ec-f 4ec-f 5ee-f 6e3 6 e-f f5 8d0-6 944-a e0100-ef"),
   ("Nd",
    "30-9 660-9 f0-9 7c0-9 966-f e6-f a66-f e6-f b66-f e6-f c66-f e6-f d66-f e6-f e50-9 d0-9 f20-9
    1040-9 90-9 7e0-9 810-9 946-f d0-9 a80-9 90-9 b50-9 b0-9 c40-9 50-9 a620-9 8d0-9 900-9 d0-9
    f0-9 a50-9 bf0-9 ff10-9 104a0-9 d30-9 40-9 1066-f f0-9 136-f d0-9 2f0-9 450-9 d0-9 650-9 c0-9
    d0-e3 730-9 8e0-9 950-9 bf0-9 c50-9 d50-9 a0-9 e0-9 f50-9 6130-9 a60-9 c0-9 b50-9 d70-9 ccf0-9
    d7ce-ff e140-9 2f0-9 4f0-9 5f1-a 950-9 fbf0-9"),
   ("Nl", "16ee-f0 2160-82 5-8 3007 21-9 38-a a6e6-f 10140-74 341 a d1-5 2400-6e 6ff4-6"),
   ("No",
    "b2-3 9 c-e 9f4-9 b72-7 f0-2 c78-e d58-e 70-8 f2a-33 1369-7c 7f0-9 9da 2070 4-9 80-9 150-f 89
    460-9b ea-ff 776-93 cfd 3192-5 220-9 48-f 51-f 80-9 b1-f a830-5 10107-33 75-8 8a-b 2e1-fb 320-3
    858-f 79-f a7-f fb-f 916-b bc-d c0-f d2-ff a40-8 7d-e 9d-f eb-f b58-f 78-f a9-f cfa-f e60-7e
    f1d-26 51-4 c5-b 1052-65 1e1-f4 73a-b 8ea-f2 c5a-6c fc0-d4 6b5b-61 e80-96 d2c0-d3 e0-f3 360-78
    e8c7-f c71-ab d-f b1-4 d01-2d f-3d f100-c"),
   ("Pc", "5f 203f-40 54 fe33-4 4d-f f3f"),
   ("Pd", "2d 58a be 1400 806 2010-5 e17 a 3a-b 40 5d 301c 30 a0 fe31-2 58 63 f0d 10d6e ead"),
   ("Pe",
    "29 5d 7d f3b d 169c 2046 7e 8e 309 b 2a 769-75/2 c6 e7-f/2 984-98/2 d9 b fd e23-9/2 56-c/2
    3009-11/2 5-b/2 e-f fd3e e18 36-44/2 8 5a-e/2 f09 3d 5d 60 3"),
   ("Pf", "bb 2019 d 3a e03 5 a d 1d 21"),
   ("Pi", "ab 2018 b-c f 39 e02 4 9 c 1c 20"),
   ("Po",
    "21-3 5-7 a c e-f 3a-b f-40 5c a1 7 b6-7 f 37e 87 55a-f 89 c0 3 6 f3-4 609-a c-d 1b d-f 6a-d d4
    700-d f7-9 830-e 5e 964-5 70 fd a76 f0 c77 84 df4 e4f 5a-b f04-12 4 85 d0-4 9-a 104a-f fb 360-8
    66e eb-d 735-6 d4-6 8-a 800-5 7-a 944-5 a1e-f a0-6 8-d b4e-f 5a-60 7d-f fc-f c3b-f 7e-f c0-7 d3
    2016-7 20-7 30-8 b-e 41-3 7-51 3 5-e cf9-c e-f d70 e00-1 6-8 b e-16 8-9 b e-f 2a-e 30-9 c-f 41
    3-f 52-4 3001-3 3d fb a4fe-f 60d-f 73 e f2-7 874-7 ce-f f8-a c 92e-f 5f c1-d de-f a5c-f de-f
    f0-1 beb fe10-6 9 30 45-6 9-c 50-2 4-7 f-61 8 a-b f01-3 5-7 a c e-f 1a-b f-20 3c 61 4-5 10100-2
    39f d0 56f 857 91f 3f a50-8 7f f0-6 b39-f 99-c ed0 f55-9 86-9 1047-d bb-c e-c1 140-3 74-5 c5-8
    d db d-f 238-d a9 3d4-5 7-8 44b-f 5a-b d c6 5c1-d7 641-3 60-c b9 73c-e 83b 944-6 e2 a3f-46 9a-c
    e-a2 b00-9 e1 c41-5 70-1 ef7-8 f43-f ff 2470-4 ff1-2 6a6e-f f5 b37-b 44 d6d-f e97-a fe2 bc9f
    da87-b e5ff 95e-f"),
   ("Ps",
    "28 5b 7b f3a c 169b 201a e 45 7d 8d 308 a 29 768-74/2 c5 e6-e/2 983-97/2 d8 a fc e22-8/2 42
    55-b/2 3008-10/2 4-a/2 d fd3f e17 35-43/2 7 59-d/2 f08 3b 5b f 62"),
   ("Sc",
    "24 a2-5 58f 60b 7fe-f 9f2-3 b af1 bf9 e3f 17db 20a0-c1 a838 fdfc e69 f04 e0-1 5-6 11fdd-e0 e2ff
    cb0"),
   ("Sk",
    "5e 60 a8 f b4 8 2c2-5 d2-f e5-b d f-ff 375 84-5 888 1fbd f-c1 d-f dd-f ed-f fd-e 309b-c a700-16
    20-1 89-a b5b 6a-b fbb2-c2 f3e 40 e3 1f3fb-f"),
   ("Sm",
    "2b 3c-e 7c e ac b1 d7 f7 3f6 606-8 2044 52 7a-c 8a-c 118 40-4 b 90-4 a-b a0 3 6 e ce-f d2 4
    f4-2ff 320-1 7c 9b-b3 dc-e1 5b7 c1 f8-f 66f 7c0-4 7-e5 f0-f 900-82 99-d7 c-fb e-aff b30-44 7-c
    fb29 e62 4-6 f0b 1c-e 5c e e2 9-c 10d8e-f cef0 d6c1 db fb 715 35 4f 6f 89 a9 c3 eef0-1 f8d0-8"),
   ("So",
    "a6 9 e b0 482 58d-e 60e-f de e9 fd-e 7f6 9fa b70 f3-8 a c7f d4f 79 f01-3 13 5-7 a-f 34-8/2
    be-c5 7-c e-f d5-8 109e-f 390-9 66d 940 de-ff b61-a 74-c 2100-1 3-6 8-9 14 6-7 e-23 5-9/2 e
    3a-b 4a c-d f 8a-b 95-9 c-f a1-2 4-5 7-d f-cd d0-1 3 5-f3 300-7 c-1f 22-8 b-7b d-9a b4-db
    e2-429 40-a 9c-e9 500-b6 8-c0 2-f7 600-6e 70-767 94-bf 800-ff b00-2f 45-6 d-73 6-ff ce5-a e50-1
    80-99 b-f3 f00-d5 f0-f 3004 12-3 20 36-7 e-f 190-1 6-f c0-e5 f 200-1e 2a-47 50 60-7f 8a-b0
    c0-3ff 4dc0-ff a490-c6 828-b 36-7 9 a77-9 fbc3-d2 d40-f 90-1 c8-f fd-f fe4 8 d-e fc-d 10137-f
    79-89 c-e 90-c a0 d0-fc 877-8 ac8 ed1-8 173f fd5-c e1-f1 6b3c-f 45 bc9c cc00-ef fa-c d00-eb3
    a-d0 e0-f f50-c3 d000-f5 100-26 9-64 a-c 83-4 c-a9 e-ea 200-41 5 300-56 800-9ff a37-a 6d-74
    6-83 5-6 e14f cac d2e f000-2b 30-93 a0-e b1-f c1-f d1-f5 10d-ad e6-202 10-3b 40-8 50-1 60-5
    300-fa 400-6d8 c-ec f0-c 700-d9 e0-b f0 800-b 10-47 50-9 60-87 90-ad b0-b c0-1 900-a57 60-d
    70-c 80-a e-c6 8 d-dc f-ea f-f8 b00-92 4-ef fa"),
   ("Zl", "2028"),
   ("Zp", "2029"),
   ("Zs", "20 a0 1680 2000-a 2f 5f 3000")]

/-- The categories with their characters as ranges. Those in none are not assigned. -/
def categories : List (String × Ranges) :=
  let assigned := categoryTable.map fun (name, text) => (name, Ranges.ofText text)
  assigned ++ [("Cn", Ranges.complement (Ranges.normal (assigned.flatMap (·.2))))]

def inCategories (p : String → Bool) : Ranges :=
  Ranges.normal ((categories.filter fun (name, _) => p name).flatMap (·.2))

def cased : Ranges := inCategories ["Lu", "Ll", "Lt"].contains

/-- The categories that one letter names: all that start with it. -/
def majorCategories : List (String × Ranges) :=
  ["C", "L", "M", "N", "P", "S", "Z"].map fun major =>
    (major, inCategories fun name => name.toList.take 1 = major.toList)

def allCategories : List (String × Ranges) := majorCategories ++ ("LC", cased) :: categories

def category? (name : String) : Option Ranges := allCategories.lookup name

def categoryNames : List (String × String) :=
  [("Other", "C"), ("Control", "Cc"), ("cntrl", "Cc"), ("Format", "Cf"), ("Unassigned", "Cn"),
   ("Private_Use", "Co"), ("Surrogate", "Cs"), ("Letter", "L"), ("Cased_Letter", "LC"),
   ("Lowercase_Letter", "Ll"), ("Modifier_Letter", "Lm"), ("Other_Letter", "Lo"),
   ("Titlecase_Letter", "Lt"), ("Uppercase_Letter", "Lu"), ("Mark", "M"), ("Combining_Mark", "M"),
   ("Spacing_Mark", "Mc"), ("Enclosing_Mark", "Me"), ("Nonspacing_Mark", "Mn"), ("Number", "N"),
   ("Decimal_Number", "Nd"), ("digit", "Nd"), ("Letter_Number", "Nl"), ("Other_Number", "No"),
   ("Punctuation", "P"), ("punct", "P"), ("Connector_Punctuation", "Pc"),
   ("Dash_Punctuation", "Pd"), ("Close_Punctuation", "Pe"), ("Final_Punctuation", "Pf"),
   ("Initial_Punctuation", "Pi"), ("Other_Punctuation", "Po"), ("Open_Punctuation", "Ps"),
   ("Symbol", "S"), ("Currency_Symbol", "Sc"), ("Modifier_Symbol", "Sk"), ("Math_Symbol", "Sm"),
   ("Other_Symbol", "So"), ("Separator", "Z"), ("Line_Separator", "Zl"),
   ("Paragraph_Separator", "Zp"), ("Space_Separator", "Zs")]

def graphic : Ranges :=
  inCategories fun name => name.toList.head?.any fun c => ['L', 'M', 'N', 'P', 'S'].contains c

def letters : Ranges := inCategories fun name => name.toList.head? = some 'L'

def numbers : Ranges := inCategories fun name => name.toList.head? = some 'N'

def isLetter (c : Char) : Bool :=
  if c.toNat < 0x80 then c.isAlpha else letters.has c.toNat

def isNumber (c : Char) : Bool :=
  if c.toNat < 0x80 then c.isDigit else numbers.has c.toNat

def isControl (c : Char) : Bool := c.toNat < 0x20 || (0x7f ≤ c.toNat && c.toNat < 0xa0)

/-- Blanks, line breaks and the other characters that leave only room. -/
def isSpace (c : Char) : Bool :=
  let n := c.toNat
  (0x09 ≤ n && n ≤ 0x0d) || n == 0x20 || n == 0x85 || n == 0xa0 || n == 0x1680 ||
    (0x2000 ≤ n && n ≤ 0x200a) || n == 0x2028 || n == 0x2029 || n == 0x202f || n == 0x205f ||
    n == 0x3000

end Taproom.Unicode
