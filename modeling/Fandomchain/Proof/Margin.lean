import Fandomchain.Proof.Positive

/-!
# The margin of a curve

Whoever trades on a curve, their position is what they have taken out of its two sides in net. A
trade lowers the margin of the reserves over that position by the remainder that rounding the payout
up gives away, and raises it by its fee, weighted with the reserve that the other side would have
without the position.
-/

namespace Fandomchain.Proof
open Fandomchain.Library Fandomchain.Tokenfactory

variable {β α : Type} {k : Keeper β α}

structure Position where
  fandom : ℤ
  tokens : ℤ

namespace Position

def onIn (p : Position) : Side → ℤ
  | .buy => p.fandom
  | .sell => p.tokens

def onOut (p : Position) : Side → ℤ
  | .buy => p.tokens
  | .sell => p.fandom

end Position

def curveMargin (d : Denom) (p : Position) : ℤ :=
  margin d.virtualFandomReserves.toInt d.virtualTokenReserves.toInt p.fandom p.tokens

theorem curveMargin_side (side : Side) (d : Denom) (p : Position) : curveMargin d p =
    margin (side.virtualIn d).toInt (side.virtualOut d).toInt (p.onIn side) (p.onOut side) := by
  cases side with
  | buy => rfl
  | sell => exact margin_comm _ _ _ _

def cushion (side : Side) (d : Denom) (p : Position) (amount : ℤ) : ℤ :=
  amount / 100 * ((side.virtualOut d).toInt + p.onOut side) -
    remainder (side.virtualIn d).toInt (side.virtualOut d).toInt (amount - amount / 100)

theorem Quoted.margin_eq {o : Order} {s : Chain β} {q : Quote α} (h : Quoted k o s q)
    (p : Position) :
    margin ((o.side.virtualIn q.denom).toInt + q.afterFee.toInt)
        ((o.side.virtualOut q.denom).toInt - q.out.toInt) (p.onIn o.side - o.amount.toInt)
        (p.onOut o.side + q.out.toInt) =
      curveMargin q.denom p + cushion o.side q.denom p o.amount.toInt := by
  have fee : o.amount.toInt - q.afterFee.toInt = o.amount.toInt / 100 := by
    rw [h.afterFee_toInt]
    ring
  have moved := margin_trade (o.side.virtualIn q.denom).toInt (o.side.virtualOut q.denom).toInt
    (p.onIn o.side) (p.onOut o.side) o.amount.toInt q.afterFee.toInt
  rw [← h.out, fee] at moved
  rw [moved, curveMargin_side o.side]
  unfold cushion
  rw [← h.afterFee_toInt]
  ring

end Fandomchain.Proof
