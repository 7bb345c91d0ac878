import Mathlib

/-! # The alias stores

Three containers follow the aliases: the history of each alias, the aliases of each address, and for
each address a stack of default aliases. Histories and stacks are kept latest first. A container
entry that is missing and one that is empty are the same here, since nothing that reads the
containers tells them apart.

The signature check of an update is a parameter. It is made with the address that owned the alias
last.
-/

namespace Zano.Aliases

structure ExtraAliasEntryBase (Address SecretKey Signature : Type*) where
  address : Address
  textComment : String
  viewKey : List SecretKey
  sign : List Signature
  deriving DecidableEq, Repr

structure ExtraAliasEntry (Address SecretKey Signature : Type*) extends
    ExtraAliasEntryBase Address SecretKey Signature where
  aliasName : String
  deriving DecidableEq, Repr

structure DefaultAliasEntry (Hash : Type*) where
  aliasName : String
  txId : Hash
  deriving DecidableEq, Repr

@[ext]
structure AliasStores (Address SecretKey Signature Hash : Type*) where
  aliases : String → List (ExtraAliasEntryBase Address SecretKey Signature)
  addrToAlias : Address → Finset String
  addrToDefaultAlias : Address → List (DefaultAliasEntry Hash)

namespace AliasStores

variable {Address SecretKey Signature Hash : Type*}

def empty : AliasStores Address SecretKey Signature Hash where
  aliases := fun _ => []
  addrToAlias := fun _ => ∅
  addrToDefaultAlias := fun _ => []

/-! ## Questions -/

def getAliasInfo (s : AliasStores Address SecretKey Signature Hash) (aliasName : String) :
    Option (ExtraAliasEntryBase Address SecretKey Signature) :=
  (s.aliases aliasName).head?

/-- The alias on top of the default stack. -/
def defaultAlias (s : AliasStores Address SecretKey Signature Hash)
    (addr : Address) : Option String :=
  (s.addrToDefaultAlias addr).head?.map (·.aliasName)

/-- `begin()` of a set of names; the empty name in the place of an empty set. -/
def first (aliases : Finset String) : String := (aliases.sort (· ≤ ·)).headD ""

def getAliasByAddress (s : AliasStores Address SecretKey Signature Hash)
    (addr : Address) : String :=
  if s.addrToAlias addr = ∅ then ""
  else
    match s.defaultAlias addr with
    | some aliasName =>
        if aliasName ∈ s.addrToAlias addr then aliasName else first (s.addrToAlias addr)
    | none => first (s.addrToAlias addr)

/-! ## Default aliases -/

variable [DecidableEq Address] [DecidableEq Hash]

def setDefaultAliases (s : AliasStores Address SecretKey Signature Hash) (addr : Address)
    (stack : List (DefaultAliasEntry Hash)) : AliasStores Address SecretKey Signature Hash :=
  { s with addrToDefaultAlias := Function.update s.addrToDefaultAlias addr stack }

def setAliasesOf (s : AliasStores Address SecretKey Signature Hash) (addr : Address)
    (aliases : Finset String) : AliasStores Address SecretKey Signature Hash :=
  { s with addrToAlias := Function.update s.addrToAlias addr aliases }

def setHistory (s : AliasStores Address SecretKey Signature Hash) (aliasName : String)
    (history : List (ExtraAliasEntryBase Address SecretKey Signature)) :
    AliasStores Address SecretKey Signature Hash :=
  { s with aliases := Function.update s.aliases aliasName history }

/-- Only an entry of this transaction is popped; the other cases are logged. -/
def popDefaultAlias (s : AliasStores Address SecretKey Signature Hash) (addr : Address)
    (txId : Hash) :
    AliasStores Address SecretKey Signature Hash :=
  match s.addrToDefaultAlias addr with
  | [] => s
  | back :: below => if back.txId = txId then s.setDefaultAliases addr below else s

def pushDefaultAlias (s : AliasStores Address SecretKey Signature Hash) (addr : Address)
    (aliasName : String) (txId : Hash) : AliasStores Address SecretKey Signature Hash :=
  s.setDefaultAliases addr (⟨aliasName, txId⟩ :: s.addrToDefaultAlias addr)

/-- The latest of the earlier defaults that is still owned, or else the first alias that is. -/
def replacement (owned : Finset String) (below : List (DefaultAliasEntry Hash)) : String :=
  let found := ((below.find? fun e => e.aliasName ∈ owned).map (·.aliasName)).getD ""
  if found = "" then first owned else found

def removeAliasFromAddress (s : AliasStores Address SecretKey Signature Hash) (addr : Address)
    (aliasName : String) (isDuringPutProcess : Bool) (txId : Hash) :
    AliasStores Address SecretKey Signature Hash :=
  let owned := (s.addrToAlias addr).erase aliasName
  let removed := s.setAliasesOf addr owned
  match s.addrToDefaultAlias addr with
  | [] => removed
  | back :: below =>
      if isDuringPutProcess then
        if back.aliasName = aliasName then
          removed.pushDefaultAlias addr (replacement owned below) txId else removed
      else if back.txId = txId then removed.popDefaultAlias addr txId
      else removed

def addAliasToAddress (s : AliasStores Address SecretKey Signature Hash) (addr : Address)
    (aliasName : String) (isDuringPutProcess : Bool) (txId : Hash) :
    AliasStores Address SecretKey Signature Hash :=
  let added := s.setAliasesOf addr (insert aliasName (s.addrToAlias addr))
  if isDuringPutProcess then
    if s.addrToAlias addr = ∅ then added.pushDefaultAlias addr aliasName txId else added
  else added.popDefaultAlias addr txId

/-! ## Alias operations -/

variable [DecidableEq SecretKey]

/-- A self-directed update counts as one of the default alias only if the description stays. -/
def SameDescription (a b : ExtraAliasEntryBase Address SecretKey Signature) : Prop :=
  a.textComment = b.textComment ∧ a.viewKey = b.viewKey

instance (a b : ExtraAliasEntryBase Address SecretKey Signature) :
    Decidable (SameDescription a b) :=
  inferInstanceAs (Decidable (_ ∧ _))

def putAliasInfo
    (checkSignature : ExtraAliasEntry Address SecretKey Signature → Address → Signature → Bool)
    (s : AliasStores Address SecretKey Signature Hash)
    (ai : ExtraAliasEntry Address SecretKey Signature) (txId : Hash) :
    Option (AliasStores Address SecretKey Signature Hash) :=
  if ai.aliasName = "" then none
  else
    match s.aliases ai.aliasName with
    | [] =>
        some ((s.setHistory ai.aliasName [ai.toExtraAliasEntryBase]).addAliasToAddress ai.address
          ai.aliasName
        true txId)
    | back :: earlier =>
        match ai.sign with
        | [sign] =>
            if checkSignature ai back.address sign then
              let moved :=
                if back.address = ai.address then
                  if SameDescription back ai.toExtraAliasEntryBase then
                    s.pushDefaultAlias ai.address ai.aliasName txId
                  else s
                else (s.removeAliasFromAddress back.address ai.aliasName true
                  txId).addAliasToAddress ai.address
                  ai.aliasName true txId
              some (moved.setHistory ai.aliasName (ai.toExtraAliasEntryBase :: back :: earlier))
            else none
        | _ => none

def popAliasInfo (s : AliasStores Address SecretKey Signature Hash)
    (ai : ExtraAliasEntry Address SecretKey Signature) (txId : Hash) :
    Option (AliasStores Address SecretKey Signature Hash) :=
  if ai.aliasName = "" then none
  else
    match s.aliases ai.aliasName with
    | [] => none
    | [back] =>
        some ((s.removeAliasFromAddress back.address ai.aliasName false txId).setHistory
          ai.aliasName [])
    | back :: prev :: earlier =>
        let moved :=
          if back.address = prev.address then
            if SameDescription back prev then s.popDefaultAlias back.address txId else s
          else s.removeAliasFromAddress back.address ai.aliasName false txId
        some ((moved.setHistory ai.aliasName (prev :: earlier)).addAliasToAddress prev.address
          ai.aliasName false txId)

end AliasStores

end Zano.Aliases
