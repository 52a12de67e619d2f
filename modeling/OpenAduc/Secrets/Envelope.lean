import OpenAduc.Lib.Sextets
import OpenAduc.Lib.Utf8
import OpenAduc.Naming.Text

namespace OpenAduc.Secrets
open Naming (Text text unit decimal)

abbrev Bytes := List UInt8

/-- The URL alphabet. -/
def urlUnit (n : Nat) : UInt16 :=
  if n < 26 then unit 'A' + UInt16.ofNat n
  else if n < 52 then unit 'a' + UInt16.ofNat (n - 26)
  else if n < 62 then unit '0' + UInt16.ofNat (n - 52)
  else if n = 62 then unit '-'
  else unit '_'

/-- What a character of either alphabet stands for. -/
def valueOfUnit (c : UInt16) : Option Nat :=
  if unit 'A' ≤ c ∧ c ≤ unit 'Z' then some (c - unit 'A').toNat
  else if unit 'a' ≤ c ∧ c ≤ unit 'z' then some (26 + (c - unit 'a').toNat)
  else if unit '0' ≤ c ∧ c ≤ unit '9' then some (52 + (c - unit '0').toNat)
  else if c = unit '-' ∨ c = unit '+' then some 62
  else if c = unit '_' ∨ c = unit '/' then some 63
  else none

/-- `toString('base64url')`: no padding. -/
def toBase64url (bytes : Bytes) : Text := (Sextets.split bytes).map urlUnit

/-- `Buffer.from`, of either alphabet: padding ends the text, and what is of neither is passed over. -/
def fromBase64 (t : Text) : Bytes := Sextets.join ((t.takeWhile (· ≠ unit '=')).filterMap valueOfUnit)

/-- AES-256-GCM with one key and tags of 16 bytes, as `createCipheriv` and `createDecipheriv` run
it: of an IV, the associated data and a plaintext, the ciphertext and its tag; of those, the
plaintext or an error. -/
structure Gcm where
  sealed : Bytes → Bytes → Bytes → Bytes × Bytes
  opened : Bytes → Bytes → Bytes → Bytes → Option Bytes

/-- What is sealed opens, as what it was. -/
structure Gcm.Faithful (gcm : Gcm) : Prop where
  tag_length : ∀ iv aad plain, (gcm.sealed iv aad plain).2.length = 16
  opened_sealed : ∀ iv aad plain, gcm.opened iv aad (gcm.sealed iv aad plain).1
    (gcm.sealed iv aad plain).2 = some plain

/-- Of the associated data in use, it opens with the same only. Not asked of all there is: tags
of 16 bytes can't tell that many apart. -/
structure Gcm.Authentic (gcm : Gcm) (used : Bytes → Prop) : Prop extends gcm.Faithful where
  same_aad : ∀ iv aad plain aad' plain', used aad → used aad' →
    gcm.opened iv aad' (gcm.sealed iv aad plain).1 (gcm.sealed iv aad plain).2 = some plain' → aad' = aad

/-- A key of the right length. -/
abbrev Key := {bytes : Bytes // bytes.length = 32}

/-- `randomBytes(12)`. -/
abbrev Iv := {bytes : Bytes // bytes.length = 12}

/-- `Crypter`'s constructor. -/
def readKey (keyBase64 : Text) : Except Text Key :=
  if length : (fromBase64 keyBase64).length = 32 then .ok ⟨fromBase64 keyBase64, length⟩
  else .error (text "ENCRYPTION_KEY must decode to exactly 32 bytes, got " ++
    decimal (fromBase64 keyBase64).length ++
    text ". Generate one with: node -e \"console.log(require('crypto').randomBytes(32).toString('base64'))\"")

/-- A cipher runs on no associated data where none is set. -/
def bytesOfAad (aad : Option Text) : Bytes := (aad.map Utf8.encode).getD []

section
variable (aes : Key → Gcm) (key : Key)

def encrypt (iv : Iv) (plaintext : Text) (aad : Option Text) : Text :=
  let (ct, tag) := (aes key).sealed iv.1 (bytesOfAad aad) (Utf8.encode plaintext)
  Naming.join [unit '.'] [text "v1", toBase64url iv.1, toBase64url ct, toBase64url tag]

def decrypt (envelope : Text) (aad : Option Text) : Except Text Text :=
  match envelope.splitOn (unit '.') with
  | [version, ivPart, ctPart, tagPart] =>
    if version ≠ text "v1" then .error (text "unrecognized encryption envelope")
    else if (fromBase64 ivPart).length ≠ 12 then .error (text "invalid IV length")
    else if (fromBase64 tagPart).length ≠ 16 then .error (text "invalid GCM tag length")
    else
      match (aes key).opened (fromBase64 ivPart) (bytesOfAad aad) (fromBase64 ctPart)
        (fromBase64 tagPart) with
      | none => .error (text "Unsupported state or unable to authenticate data")
      | some plain => .ok (Utf8.decode plain)
  | _ => .error (text "unrecognized encryption envelope")

end

section
variable {aes : Key → Gcm} {key : Key} {bytes : Bytes} {n : Nat} {iv : Iv} {p : Text} {aad aad' : Option Text}

theorem urlUnit_apart : ∀ n < 64, urlUnit n ≠ unit '.' ∧ urlUnit n ≠ unit '=' ∧
    valueOfUnit (urlUnit n) = some n := by
  decide

theorem toBase64url_dotless (bytes : Bytes) : unit '.' ∉ toBase64url bytes := by
  unfold toBase64url
  rw [List.mem_map]
  rintro ⟨x, member, same⟩
  exact (urlUnit_apart x (Sextets.split_lt bytes x member)).1 same

/-- What base64url writes is read back. -/
theorem fromBase64_toBase64url (bytes : Bytes) : fromBase64 (toBase64url bytes) = bytes := by
  have inside := Sextets.split_lt bytes
  have unpadded : ∀ c ∈ toBase64url bytes, decide (c ≠ unit '=') = true := by
    intro c member
    obtain ⟨x, isIn, rfl⟩ := List.mem_map.mp member
    simpa using (urlUnit_apart x (inside x isIn)).2.1
  have values : ∀ xs : List Nat, (∀ x ∈ xs, x < 64) → (xs.map urlUnit).filterMap valueOfUnit = xs := by
    intro xs small
    induction xs with
    | nil => rfl
    | cons x xs ih =>
      rw [List.map_cons, List.filterMap_cons_some (urlUnit_apart x (small x (List.mem_cons_self ..))).2.2,
        ih fun y member => small y (List.mem_cons_of_mem _ member)]
  unfold fromBase64
  rw [List.takeWhile_eq_self_iff.mpr unpadded]
  unfold toBase64url
  rw [values _ inside, Sextets.join_split]

/-- An envelope's parts. -/
theorem splitOn_encrypt (iv : Iv) (p : Text) (aad : Option Text) :
    (encrypt aes key iv p aad).splitOn (unit '.') = [text "v1", toBase64url iv.1,
      toBase64url ((aes key).sealed iv.1 (bytesOfAad aad) (Utf8.encode p)).1,
      toBase64url ((aes key).sealed iv.1 (bytesOfAad aad) (Utf8.encode p)).2] := by
  refine List.splitOn_intercalate _ ?_ (by simp)
  intro part member
  simp only [List.mem_cons, List.not_mem_nil, or_false] at member
  rcases member with rfl | rfl | rfl | rfl
  · decide
  · exact toBase64url_dotless _
  · exact toBase64url_dotless _
  · exact toBase64url_dotless _

theorem decrypt_of_parts {e ivPart ctPart tagPart : Text}
    (parts : e.splitOn (unit '.') = [text "v1", ivPart, ctPart, tagPart])
    (ivLength : (fromBase64 ivPart).length = 12) (tagLength : (fromBase64 tagPart).length = 16) :
    decrypt aes key e aad =
      match (aes key).opened (fromBase64 ivPart) (bytesOfAad aad) (fromBase64 ctPart)
      (fromBase64 tagPart) with
      | none => .error (text "Unsupported state or unable to authenticate data")
      | some plain => .ok (Utf8.decode plain) := by
  unfold decrypt
  rw [parts]
  dsimp only
  rw [if_neg (not_not.mpr rfl), if_neg (not_not.mpr ivLength), if_neg (not_not.mpr tagLength)]

/-- An envelope gives what was put in it. -/
theorem decrypt_own (faithful : (aes key).Faithful) :
    decrypt aes key (encrypt aes key iv p aad) aad = .ok (Utf8.decode (Utf8.encode p)) := by
  rw [decrypt_of_parts (splitOn_encrypt iv p aad) (by rw [fromBase64_toBase64url]; exact iv.2)
    (by rw [fromBase64_toBase64url]; exact faithful.tag_length ..), fromBase64_toBase64url,
      fromBase64_toBase64url,
    fromBase64_toBase64url, faithful.opened_sealed]

/-- What an envelope gives: what was put in it, and nothing where it is read with other associated data. -/
theorem decrypt_encrypt {used : Bytes → Prop} (authentic : (aes key).Authentic used)
    (known : used (bytesOfAad aad))
    (known' : used (bytesOfAad aad')) {q : Text} :
    decrypt aes key (encrypt aes key iv p aad) aad' = .ok q ↔
      bytesOfAad aad' = bytesOfAad aad ∧ q = Utf8.decode (Utf8.encode p) := by
  rw [decrypt_of_parts (splitOn_encrypt iv p aad) (by rw [fromBase64_toBase64url]; exact iv.2)
    (by rw [fromBase64_toBase64url]; exact authentic.tag_length ..), fromBase64_toBase64url,
      fromBase64_toBase64url,
    fromBase64_toBase64url]
  constructor
  · intro gave
    cases opens : (aes key).opened iv.1 (bytesOfAad aad')
      ((aes key).sealed iv.1 (bytesOfAad aad) (Utf8.encode p)).1
        ((aes key).sealed iv.1 (bytesOfAad aad) (Utf8.encode p)).2 with
    | none =>
      rw [opens] at gave
      cases gave
    | some plain =>
      have same : bytesOfAad aad' = bytesOfAad aad := authentic.same_aad _ _ _ _ _ known known' opens
      rw [same, authentic.opened_sealed] at gave
      exact ⟨same, (Except.ok.inj gave).symm⟩
  · rintro ⟨same, rfl⟩
    rw [same, authentic.opened_sealed]

/-- A secret is read back as it was written, in any alphabet, and where it is bound elsewhere not at all. -/
theorem secret_roundTrip
    (authentic : (aes key).Authentic fun bytes => bytes = bytesOfAad aad ∨ bytes = bytesOfAad aad')
    (whole : Pairs.isWhole Utf8.isHigh Utf8.isLow p = true) (q : Text) :
    decrypt aes key (encrypt aes key iv p aad) aad' = .ok q ↔ bytesOfAad aad' = bytesOfAad aad ∧ q = p := by
  rw [decrypt_encrypt authentic (.inl rfl) (.inr rfl), Utf8.decode_encode_whole whole]

end

def clearHead (aad : Bytes) : Bytes := List.replicate aad.length 1 ++ 0 :: aad

/-- A cipher that hides nothing. -/
def clearGcm : Gcm where
  sealed _ aad plain := (clearHead aad ++ plain, List.replicate 16 0)
  opened _ aad ct tag :=
    if tag = List.replicate 16 0 ∧ (clearHead aad).isPrefixOf ct then
      some (ct.drop (clearHead aad).length) else none

theorem clearHead_inj {aad aad' rest rest' : Bytes}
    (same : clearHead aad ++ rest = clearHead aad' ++ rest') : aad = aad' := by
  have ones : ∀ aad rest : Bytes, (clearHead aad ++ rest).takeWhile (· = 1) =
    List.replicate aad.length 1 := by
    intro aad rest
    unfold clearHead
    rw [List.append_assoc, List.takeWhile_append_of_pos (by simp +contextual)]
    simp
  have lengths : aad.length = aad'.length := by
    have counted := congrArg (fun l => (l.takeWhile (· = 1)).length) same
    simpa only [ones, List.length_replicate] using counted
  unfold clearHead at same
  rw [lengths, List.append_assoc, List.append_assoc] at same
  have after := (List.cons.inj (List.append_cancel_left same)).2
  exact (List.append_inj after lengths).1

theorem clear_authentic (used : Bytes → Prop) : clearGcm.Authentic used where
  tag_length _ _ _ := List.length_replicate
  opened_sealed iv aad plain := by
    have starts : (clearHead aad).isPrefixOf (clearHead aad ++ plain) = true :=
      List.isPrefixOf_iff_prefix.mpr (List.prefix_append ..)
    simp only [clearGcm, starts, and_self, if_true, List.drop_left]
  same_aad iv aad plain aad' plain' _ _ opens := by
    simp only [clearGcm] at opens
    split at opens
    next both =>
      obtain ⟨rest, is⟩ := List.isPrefixOf_iff_prefix.mp both.2
      exact clearHead_inj is
    next => cases opens

def clearKey : Key := ⟨List.replicate 32 0, rfl⟩

def firstIv : Iv := ⟨List.replicate 12 0, rfl⟩

theorem clear_roundTrip :
    decrypt (fun _ => clearGcm) clearKey
      (encrypt (fun _ => clearGcm) clearKey firstIv (text "Zoë🔑") (some (text "import_passwords:7:41")))
      (some (text "import_passwords:7:41")) = .ok (text "Zoë🔑") :=
  (secret_roundTrip (clear_authentic _) (by decide) _).mpr ⟨rfl, rfl⟩

end OpenAduc.Secrets
