import KnowledgeCompiler.Lib.Sha256
import Mathlib.Data.String.Basic

namespace KnowledgeCompiler.Exporters

open Lib

abbrev Bytes := List UInt8

def all_in (alphabet : String) (text : List Char) : Bool := text.all (· ∈ alphabet.toList)

-- `^sha256:[0-9a-f]{64}$`
def is_sha256_id (value : String) : Bool :=
  let digits := value.toList.drop 7
  value.toList.take 7 = "sha256:".toList && digits.length = 64 && all_in "0123456789abcdef" digits

section Digests

variable (hasher : Hasher)

def hexdigest (content : Bytes) : String := hasher.hexdigest ⟨content.toArray⟩

def sha256_digest (content : Bytes) : String := "sha256:" ++ hexdigest hasher content

end Digests

section Shape

variable {hasher : Hasher}

-- Digests are as long as those of SHA-256.
def Hasher64 (hasher : Hasher) : Prop := ∀ bytes, (hasher.hexdigest bytes).length = 64

theorem is_sha256_id_digest (hlength : Hasher64 hasher) (content : Bytes) :
    is_sha256_id (sha256_digest hasher content) = true := by
  have hlist : (sha256_digest hasher content).toList =
      "sha256:".toList ++ (hexdigest hasher content).toList := by
    rw [sha256_digest, String.toList_append]
  have hseven : "sha256:".toList.length = 7 := rfl
  have hhex : ∀ c ∈ (hexdigest hasher content).toList, c ∈ "0123456789abcdef".toList := by
    intro c hc
    obtain ⟨d, hd, rfl⟩ := hasher.hex _ c hc
    have h : ∀ d < 16, Nat.digitChar d ∈ "0123456789abcdef".toList := by decide
    exact h d hd
  have hlong : (hexdigest hasher content).toList.length = 64 := by
    rw [String.length_toList]
    exact hlength _
  unfold is_sha256_id
  rw [hlist, List.take_left' hseven, List.drop_left' hseven]
  simp only [decide_true, Bool.true_and, hlong, all_in, List.all_eq_true, decide_eq_true_eq]
  exact hhex

end Shape

end KnowledgeCompiler.Exporters
