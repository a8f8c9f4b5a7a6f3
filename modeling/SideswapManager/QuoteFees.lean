import SideswapManager.Coordinator

namespace SideswapManager.QuoteFees

-- The fee table over unbounded naturals: each side pays or loses the fee on the fee asset's side.
def ownSide : AssetType → Nat → Nat → Nat
  | .base,base,_ => base
  | .quote,_,quote => quote

def otherSide : AssetType → Nat → Nat → Nat
  | .base,_,quote => quote
  | .quote,base,_ => base

def opposite : AssetType → AssetType
  | .base => .quote
  | .quote => .base

def sideFee (side feeAsset : AssetType) (fee : Nat) : Nat := if side = feeAsset then fee else 0

-- An overflowing total fee wraps to 0, and the amount check passes with no fee charged.
theorem overflowed_fee_passes_check :
    (18446744073709551615 : UInt64).toNat + (1 : UInt64).toNat = 2 ^ 64 ∧
    finishQuote Lib.constant (World.start Db.empty) ⟨1,1000,2,""⟩ ⟨.sendFailed,.ok 0,[],.error .disconnected,0⟩
      ⟨1,8⟩ ⟨2,8⟩ .sell .base 1000 (.success 5 1000 500 18446744073709551615 1 60) =
        ((World.start Db.empty).issue (.server (.getQuote 5)),.error (.wsError .disconnected)) :=
  ⟨rfl,rfl⟩

end SideswapManager.QuoteFees
