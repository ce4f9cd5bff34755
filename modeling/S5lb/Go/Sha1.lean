import Mathlib.Data.List.Basic

namespace Go.Sha1

def rotl (x n : UInt32) : UInt32 := (x <<< n) ||| (x >>> (32 - n))

def pad (message : List UInt8) : List UInt8 :=
  let bits := 8 * message.length
  message ++ [(0x80 : UInt8)] ++ List.replicate ((119 - message.length % 64) % 64) (0 : UInt8) ++
    (List.range 8).map fun i => UInt8.ofNat (bits >>> (8 * (7 - i)))

def word (bytes : List UInt8) : UInt32 :=
  bytes.foldl (fun acc b => (acc <<< 8) ||| b.toUInt32) 0

def schedule (block : List UInt8) : List UInt32 :=
  (List.range 64).foldl
    (fun w i => w ++ [rotl (w.getD (i + 13) 0 ^^^ w.getD (i + 8) 0 ^^^ w.getD (i + 2) 0 ^^^
      w.getD i 0) 1])
    ((List.range 16).map fun i => word ((block.drop (4 * i)).take 4))

structure Digest where
  a : UInt32
  b : UInt32
  c : UInt32
  d : UInt32
  e : UInt32

def mix (i : Nat) (h : Digest) : UInt32 :=
  if i < 20 then ((h.b &&& h.c) ||| (~~~h.b &&& h.d)) + 0x5A827999
  else if i < 40 then (h.b ^^^ h.c ^^^ h.d) + 0x6ED9EBA1
  else if i < 60 then ((h.b &&& h.c) ||| (h.b &&& h.d) ||| (h.c &&& h.d)) + 0x8F1BBCDC
  else (h.b ^^^ h.c ^^^ h.d) + 0xCA62C1D6

def compress (h : Digest) (block : List UInt8) : Digest :=
  let r := (schedule block).zipIdx.foldl
    (fun h (w, i) => ⟨rotl h.a 5 + mix i h + h.e + w, h.a, rotl h.b 30, h.c, h.d⟩) h
  ⟨h.a + r.a, h.b + r.b, h.c + r.c, h.d + r.d, h.e + r.e⟩

def blocks : Nat → List UInt8 → List (List UInt8)
  | 0, _ => []
  | n + 1, bytes => bytes.take 64 :: blocks n (bytes.drop 64)

def sum (message : List UInt8) : List UInt8 :=
  let padded := pad message
  let h := (blocks (padded.length / 64) padded).foldl compress
    ⟨0x67452301, 0xEFCDAB89, 0x98BADCFE, 0x10325476, 0xC3D2E1F0⟩
  [h.a, h.b, h.c, h.d, h.e].flatMap fun (w : UInt32) =>
    [(w >>> 24).toUInt8, (w >>> 16).toUInt8, (w >>> 8).toUInt8, w.toUInt8]

end Go.Sha1
