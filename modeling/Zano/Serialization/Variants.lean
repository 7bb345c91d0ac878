import Zano.Serialization.Transaction

/-! # Items of a kind

`extra`, the attachments and the details of an input are lists of variants in which the first item
of a kind is the one that counts.
-/

namespace Zano.Serialization

/-- `get_type_in_variant_container`: the first item of the kind. -/
def getTypeInVariantContainer {α β : Type*} (kind : α → Option β) (container : List α) : Option β :=
    container.findSome? kind

namespace PayloadItemsV

def etcTxDetailsUnlockTime : PayloadItemsV → Option EtcTxDetailsUnlockTime
  | .inr (.inr (.inr (.inr (.inr (.inr (.inr (.inr (.inl item)))))))) => some item
  | _ => none

def etcTxDetailsFlags : PayloadItemsV → Option EtcTxDetailsFlags
  | .inr (.inr (.inr (.inr (.inr (.inr (.inr (.inr (.inr (.inr (.inl item)))))))))) => some item
  | _ => none

def publicKey : PayloadItemsV → Option PublicKey
  | .inr (.inr (.inr (.inr (.inr (.inr (.inr (.inr (.inr (.inr (.inr (.inl item))))))))))) =>
      some item
  | _ => none

def extraAttachmentInfo : PayloadItemsV → Option ExtraAttachmentInfo
  | .inr (.inr (.inr (.inr (.inr (.inr (.inr (.inr (.inr (.inr (.inr (.inr (.inl item)))))))))))) =>
      some item
  | _ => none

def etcTxDetailsUnlockTime2 : PayloadItemsV → Option EtcTxDetailsUnlockTime2
  | .inr (.inr
    (.inr (.inr (.inr (.inr (.inr (.inr (.inr (.inr (.inr (.inr (.inr (.inr (.inr (.inr (.inr
      (.inl item))))))))))))))))) => some item
  | _ => none

end PayloadItemsV

/-- `get_tx_x_detail`, which is zero where there is no such item. -/
def getTxXDetail {β : Type*} (kind : PayloadItemsV → Option β) (v : β → UInt64)
    (tx : TransactionPrefix) : UInt64 :=
  match getTypeInVariantContainer kind tx.extra with
  | none => 0
  | some item => v item

def getTxFlags (tx : TransactionPrefix) : UInt64 :=
  getTxXDetail PayloadItemsV.etcTxDetailsFlags (·.v) tx

end Zano.Serialization
