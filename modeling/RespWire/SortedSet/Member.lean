import RespWire.Collection.OrderedSet
import RespWire.Number.Binary64
import RespWire.Resp.Shape
import RespWire.Text.Blank

/-!
# Scored members

The members of a sorted set with their scores, read from a reply that lists them in turn. Members
are told apart by their bytes and the bits of their scores.
-/

namespace RespWire

/-- A score, sent as an integer or as text with any white space around it. -/
def scoreOfReply (reply : Resp) : Except ReplyError Binary64 :=
  match reply with
  | .integer value => .ok (.ofInt value.toInt)
  | .simple _ | .bulk _ =>
    match reply.text? with
    | none => .error (.invalidScore "non UTF-8 score")
    | some text =>
      match Binary64.read? (trim text.toList) with
      | some score => .ok score
      | none => .error (.invalidScore text)
  | _ => .error (.unexpected .score reply.kind)

/-- A member of a sorted set and its score. -/
structure ScoredEntry where
  member : Bytes
  score : Binary64
  deriving DecidableEq, Repr

namespace ScoredEntry

/-- Members are in the order of their bytes, then of the bits of their scores. -/
instance : LT ScoredEntry where
  lt a b := a.member < b.member ∨ a.member = b.member ∧ a.score.bits < b.score.bits

instance : DecidableLT ScoredEntry := fun a b =>
  inferInstanceAs
    (Decidable (a.member < b.member ∨ a.member = b.member ∧ a.score.bits < b.score.bits))

theorem lt_iff {a b : ScoredEntry} :
    a < b ↔ a.member < b.member ∨ a.member = b.member ∧ a.score.bits < b.score.bits := .rfl

instance : StrictTotal ScoredEntry where
  asymm a b hab hba := by
    rcases hab with hab | ⟨hmember, hab⟩ <;> rcases hba with hba | ⟨hmember', hba⟩
    · exact Std.Asymm.asymm _ _ hab hba
    · exact Std.lt_irrefl (hmember' ▸ hab)
    · exact Std.lt_irrefl (hmember ▸ hba)
    · exact Std.Asymm.asymm _ _ hab hba
  trichotomous a b hab hba := by
    rw [lt_iff, not_or, not_and] at hab hba
    have hmember : a.member = b.member := Std.Trichotomous.trichotomous _ _ hab.1 hba.1
    have hbits : a.score.bits = b.score.bits :=
      Std.Trichotomous.trichotomous _ _ (hab.2 hmember) (hba.2 hmember.symm)
    obtain ⟨m, ⟨x⟩⟩ := a
    obtain ⟨n, ⟨y⟩⟩ := b
    cases hmember
    cases hbits
    rfl
  trans {a b c} hab hbc := by
    rcases hab with hab | ⟨hab, hbits⟩ <;> rcases hbc with hbc | ⟨hbc, hbits'⟩
    · exact .inl (Std.lt_trans hab hbc)
    · exact .inl (hbc ▸ hab)
    · exact .inl (hab ▸ hbc)
    · exact .inr ⟨hab.trans hbc, Std.lt_trans hbits hbits'⟩

def setOfList (members : List ScoredEntry) : OrderedSet ScoredEntry := .ofList members

/-- Reads members and scores in turn. -/
def ofPairs : List Resp → Except ReplyError (List ScoredEntry)
  | member :: score :: rest => do
    let member ← member.requireBulk
    let score ← scoreOfReply score
    let members ← ofPairs rest
    return ⟨member, score⟩ :: members
  | _ => .ok []

/-- Reads a reply of members and scores in turn. The absent reply has none. -/
def ofReply : Resp → Except ReplyError (List ScoredEntry)
  | .null => .ok []
  | reply => do
    let items ← reply.requireArray
    if items.length % 2 ≠ 0 then .error (.unpaired items.length) else ofPairs items

end ScoredEntry

end RespWire
