import HollowNode.Key.Modular

namespace HollowNode.Key

structure Curve where
  p : Nat
  order : Nat
  baseX : Nat
  baseY : Nat
  /-- The number of bytes of a coordinate and of a secret number. -/
  width : Nat

/-- Three numbers that stand for x / z² and y / z³ on the curve y² = x³ - 3x + b, or for the point
at infinity where z is zero. -/
structure Point where
  x : Nat
  y : Nat
  z : Nat

namespace Curve

def p256 : Curve where
  p := 0xffffffff00000001000000000000000000000000ffffffffffffffffffffffff
  order := 0xffffffff00000000ffffffffffffffffbce6faada7179e84f3b9cac2fc632551
  baseX := 0x6b17d1f2e12c4247f8bce6e563a440f277037d812deb33a0f4a13945d898c296
  baseY := 0x4fe342e2fe1a7f9b8ee7eb4a7c0f9e162bce33576b315ececbb6406837bf51f5
  width := 32

def p384 : Curve where
  p :=
    0xfffffffffffffffffffffffffffffffffffffffffffffffffffffffffffffffeffffffff0000000000000000ffffffff
  order :=
    0xffffffffffffffffffffffffffffffffffffffffffffffffc7634d81f4372ddf581a0db248b0a77aecec196accc52973
  baseX :=
    0xaa87ca22be8b05378eb1c71ef320ad746e1d3b628ba79b9859f741e082542a385502f25dbf55296c3a545e3872760ab7
  baseY :=
    0x3617de4a96262c6f5d9e98bf9292dc29f8f41dbd289a147ce9da3113b5f0b8c00a60b1ce1d7e819d7a431d7c90ea0e5f
  width := 48

def double (c : Curve) (a : Point) : Point :=
  let p := c.p
  let yy := a.y * a.y % p
  let zz := a.z * a.z % p
  let s := 4 * a.x * yy % p
  let m := 3 * (sub p a.x zz) * (a.x + zz) % p
  let x := sub p (m * m) (2 * s)
  ⟨x, sub p (m * sub p s x) (8 * yy * yy), 2 * a.y * a.z % p⟩

def add (c : Curve) (a b : Point) : Point :=
  let p := c.p
  if a.z = 0 then b
  else if b.z = 0 then a
  else
    let aa := a.z * a.z % p
    let bb := b.z * b.z % p
    let u := a.x * bb % p
    let s := a.y * b.z * bb % p
    let h := sub p (b.x * aa) u
    let r := sub p (b.y * a.z * aa) s
    if h = 0 then if r = 0 then c.double a else ⟨1, 1, 0⟩
    else
      let hh := h * h % p
      let v := u * hh % p
      let x := sub p (r * r) (h * hh + 2 * v)
      ⟨x, sub p (r * sub p v x) (s * (h * hh % p)), h * a.z * b.z % p⟩

def multiple (c : Curve) (a : Point) : List Bool → Point
  | [] => ⟨1, 1, 0⟩
  | b :: rest =>
    let high := c.multiple (c.double a) rest
    if b then c.add a high else high

/-- Whether the point with these coordinates is the public point of a secret number. -/
def isPublic (c : Curve) (secret x y : Nat) : Bool :=
  let q := c.multiple ⟨c.baseX, c.baseY, 1⟩ (bits (bitLength secret) secret)
  x < c.p && y < c.p && q.z ≠ 0 && q.x = x * q.z * q.z % c.p && q.y = y * q.z * q.z * q.z % c.p

end Curve

end HollowNode.Key
