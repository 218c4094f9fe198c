import DiagnosticWatch.Daemon.Server

/-!
# One line carries one message

A text without line feed, followed by one, is exactly the first line of the bytes that start with
it, whatever comes behind it (`Daemon.firstLine?_append`). The encoding of no other character holds
the byte of a line feed, so that cutting bytes cuts texts.
-/

namespace DiagnosticWatch

theorem byteArray_toList_loop (bytes : ByteArray) (i : Nat) (done : List UInt8) :
    ByteArray.toList.loop bytes i done = done.reverse ++ bytes.data.toList.drop i := by
  induction i, done using ByteArray.toList.loop.induct bytes with
  | case1 i done inside ih =>
      have next : bytes.data.toList.drop i =
          bytes.get! i :: bytes.data.toList.drop (i + 1) := by
        rw [List.drop_eq_getElem_cons (by simpa using inside)]
        simp [ByteArray.get!, inside]
      rw [ByteArray.toList.loop, if_pos inside, ih, next]
      simp
  | case2 i done outside =>
      have none : bytes.data.toList.drop i = [] :=
        List.drop_of_length_le (by simpa using outside)
      rw [ByteArray.toList.loop, if_neg outside, none, List.append_nil]

theorem byteArray_toList (bytes : ByteArray) : bytes.toList = bytes.data.toList := by
  rw [ByteArray.toList, byteArray_toList_loop]
  rfl

/-- The bytes of a text are those of its characters in turn. -/
theorem toUTF8_toList (s : String) :
    s.toUTF8.data.toList = s.toList.flatMap String.utf8EncodeChar := by
  have bytes : s.toUTF8 = (s.toList.flatMap String.utf8EncodeChar).toByteArray := by
    conv => lhs; rw [← String.ofList_toList (s := s)]
    rfl
  rw [bytes, List.data_toByteArray]

/-- Only a line feed is encoded with its byte. -/
theorem lineFeed_not_mem_utf8EncodeChar {c : Char} (other : c ≠ '\n') :
    10 ∉ String.utf8EncodeChar c := by
  have code : c.val.toNat ≠ 10 := by
    intro same
    exact other (Char.ext (UInt32.toNat_inj.mp same))
  have byte (n : Nat) : (10 : UInt8) = UInt8.ofNat n ↔ n % 256 = 10 := by
    rw [← UInt8.toNat_inj, UInt8.toNat_ofNat', eq_comm]
    rfl
  intro mem
  simp only [String.utf8EncodeChar] at mem
  split at mem
  · rw [List.mem_singleton, byte] at mem
    omega
  · -- every byte of a longer encoding has its highest bit set
    split at mem
    · simp only [List.mem_cons, List.not_mem_nil, or_false, byte] at mem
      omega
    · split at mem
      · simp only [List.mem_cons, List.not_mem_nil, or_false, byte] at mem
        omega
      · simp only [List.mem_cons, List.not_mem_nil, or_false, byte] at mem
        omega

theorem lineFeed_not_mem_toUTF8 {s : String} (whole : '\n' ∉ s.toList) :
    10 ∉ s.toUTF8.data.toList := by
  rw [toUTF8_toList, List.mem_flatMap]
  rintro ⟨c, mem, byte⟩
  apply lineFeed_not_mem_utf8EncodeChar _ byte
  rintro rfl
  exact whole mem

theorem byteLines_append {line : List UInt8} (whole : 10 ∉ line) (rest : List UInt8) :
    byteLines (line ++ 10 :: rest) = line :: byteLines rest := by
  induction line with
  | nil => rfl
  | cons b line ih =>
      rw [List.mem_cons, not_or] at whole
      rw [List.cons_append, byteLines, if_neg (Ne.symm whole.1), ih whole.2]

theorem byteLines_ne_nil (b : UInt8) (bytes : List UInt8) : byteLines (b :: bytes) ≠ [] := by
  rw [byteLines]
  split
  · exact List.cons_ne_nil _ _
  · split <;> exact List.cons_ne_nil _ _

/-- The first line of a message and anything behind it is the message. -/
theorem Daemon.firstLine?_append {line : String} (whole : '\n' ∉ line.toList) (more : ByteArray) :
    Daemon.firstLine? ((line ++ "\n").toUTF8 ++ more) = some (line ++ "\n") := by
  have message : (line ++ "\n").toUTF8.data.toList = line.toUTF8.data.toList ++ [10] := by
    rw [toUTF8_toList, toUTF8_toList, String.toList_append, List.flatMap_append]
    rfl
  have bytes : ((line ++ "\n").toUTF8 ++ more).toList =
      line.toUTF8.data.toList ++ 10 :: more.data.toList := by
    rw [byteArray_toList, ByteArray.data_append, Array.toList_append, message,
      List.append_assoc, List.singleton_append]
  have cut := byteLines_append (lineFeed_not_mem_toUTF8 whole) more.data.toList
  have ended : (!(byteLines more.data.toList).isEmpty ||
      decide ((line.toUTF8.data.toList ++ 10 :: more.data.toList).getLast? = some 10)) = true := by
    cases more.data.toList with
    | nil => simp [byteLines]
    | cons b bytes => simp [byteLines_ne_nil]
  have text : (⟨(line.toUTF8.data.toList ++ [10]).toArray⟩ : ByteArray) =
      (line ++ "\n").toUTF8 := by
    rw [← message]
  simp only [Daemon.firstLine?, bytes, cut, ended, if_true, text]
  exact dif_pos (line ++ "\n").isValidUTF8

end DiagnosticWatch
