import ObjectVM.Container.Binary
import ObjectVM.Proofs.CodecLaws

/-!
# Containers in bytes and back

A container is read back from its bytes bit for bit, whatever lies behind them, and from none of
their proper beginnings (`bytes_round_trip`). So different containers have different bytes, and
none has bytes that another's begin with. All that is asked of a container is what any container in
a memory is: that the sizes of its texts and lists are words (`Container.Fits`).
-/
namespace ObjectVM

open Binary

/-- The size of a text is a word. -/
def TextFits (s : String) : Prop := s.utf8ByteSize < UInt64.size

/-- The length of a list is a word. -/
def ListFits {α : Type} (l : List α) : Prop := l.length < UInt64.size

instance (s : String) : Decidable (TextFits s) := inferInstanceAs (Decidable (_ < _))

instance {α : Type} (l : List α) : Decidable (ListFits l) := inferInstanceAs (Decidable (_ < _))

/-- The sizes of all parts of a stored closure are words. -/
structure ClosureRecord.Fits (r : ClosureRecord) : Prop where
  name : TextFits r.name
  instructions : ListFits r.instructions
  positions : ListFits r.positions
  catchSites : ListFits r.catchSites

/-- The sizes of all parts of a container are words. -/
structure Container.Fits (c : Container) : Prop where
  format : TextFits c.format
  formatVersion : TextFits c.formatVersion
  targetVersion : TextFits c.targetVersion
  path : TextFits c.path
  encoding : TextFits c.encoding
  author : TextFits c.author
  strings : ListFits c.strings ∧ ∀ s ∈ c.strings, TextFits s
  floats : ListFits c.floats
  closures : ListFits c.closures ∧ ∀ r ∈ c.closures, r.Fits

theorem InstructionRecord.lawful_codec : codec.Lawful fun _ => True :=
  ((Codec.lawful_word16.pair <| Codec.lawful_word64.pair Codec.lawful_word64).map
    fun _ _ => rfl).mono fun _ _ => ⟨trivial, trivial, trivial⟩

theorem PositionRecord.lawful_codec : codec.Lawful fun _ => True :=
  ((Codec.lawful_word64.pair <| Codec.lawful_word32.pair Codec.lawful_word32).map
    fun _ _ => rfl).mono fun _ _ => ⟨trivial, trivial, trivial⟩

theorem CatchRecord.lawful_codec : codec.Lawful fun _ => True :=
  ((Codec.lawful_word64.pair <| Codec.lawful_word64.pair Codec.lawful_word64).map
    fun _ _ => rfl).mono fun _ _ => ⟨trivial, trivial, trivial⟩

theorem ClosureRecord.lawful_codec : codec.Lawful Fits := by
  have parts := Codec.lawful_text.pair <| Codec.lawful_word64.pair <|
    Codec.lawful_word64.option.pair <| InstructionRecord.lawful_codec.list.pair <|
      PositionRecord.lawful_codec.list.pair CatchRecord.lawful_codec.list
  refine (parts.map fun _ _ => rfl).mono fun r fits => ?_
  exact ⟨fits.name, trivial, fun _ _ => trivial, ⟨fits.instructions, fun _ _ => trivial⟩,
    ⟨fits.positions, fun _ _ => trivial⟩, fits.catchSites, fun _ _ => trivial⟩

namespace Container

theorem lawful_codec : codec.Lawful Fits := by
  have parts := Codec.lawful_text.pair <| Codec.lawful_text.pair <| Codec.lawful_text.pair <|
    Codec.lawful_text.pair <| Codec.lawful_word64.pair <| Codec.lawful_text.pair <|
      Codec.lawful_text.pair <| Codec.lawful_text.list.pair <| Codec.lawful_floatBits.list.pair
        ClosureRecord.lawful_codec.list
  refine (parts.map fun _ _ => rfl).mono fun c fits => ?_
  exact ⟨fits.format, fits.formatVersion, fits.targetVersion, fits.path, trivial, fits.encoding,
    fits.author, fits.strings, ⟨fits.floats, fun _ _ => trivial⟩, fits.closures⟩

theorem ofBytes_append {c : Container} (fits : c.Fits) (rest : Bytes) :
    ofBytes (c.toBytes ++ rest) = .ok c := by
  simp only [ofBytes, toBytes, lawful_codec.reads c rest fits]
  rfl

theorem ofBytes_cut {c : Container} (fits : c.Fits) {front : Bytes} (pre : front <+: c.toBytes)
    (cut : front ≠ c.toBytes) : ofBytes front = .error .endOfInput := by
  simp only [ofBytes, lawful_codec.stops c front fits pre cut]
  rfl

/-- A container is read back from its bytes, with or without more behind them, and from no proper
beginning of them. No other container's bytes begin with them. -/
theorem bytes_round_trip {c : Container} (fits : c.Fits) :
    (∀ rest, ofBytes (c.toBytes ++ rest) = .ok c) ∧
    (∀ front, front <+: c.toBytes → front ≠ c.toBytes → ofBytes front = .error .endOfInput) ∧
    ∀ d : Container, c.toBytes <+: d.toBytes → d.Fits → c = d := by
  refine ⟨ofBytes_append fits, fun front pre cut => ofBytes_cut fits pre cut, ?_⟩
  rintro d ⟨rest, same⟩ fits'
  have whole := ofBytes_append fits' []
  rw [List.append_nil, ← same, ofBytes_append fits rest] at whole
  exact Except.ok.inj whole

/-- A container with a word that takes ten bytes, a text that takes more bytes than characters, and
floats that are not numbers. -/
def extreme : Container :=
  { blank with
    path := "é"
    timestamp := UInt64.ofNat (UInt64.size - 1)
    floats := [0x7ff8000000000001, 0xfff0000000000000]
    closures := [⟨"f", 300, some 0, [⟨0xffff, 128, 0⟩], [⟨0, 1, 2⟩], [⟨0, 1, 2⟩]⟩] }

theorem bytes_round_trip_extreme : extreme.Fits ∧
    ofBytes (extreme.toBytes ++ [0xff]) = .ok extreme ∧
    ofBytes (extreme.toBytes.dropLast) = .error .endOfInput := by
  have closure : ∀ r ∈ extreme.closures, r.Fits := by
    intro r hr
    rw [List.mem_singleton.mp hr]
    constructor <;> decide +kernel
  have fits : extreme.Fits :=
    ⟨by decide +kernel, by decide +kernel, by decide +kernel, by decide +kernel, by decide +kernel,
      by decide +kernel, by decide +kernel, by decide +kernel, by decide +kernel, closure⟩
  obtain ⟨reads, stops, -⟩ := bytes_round_trip fits
  refine ⟨fits, reads _, stops _ (List.dropLast_prefix _) ?_⟩
  decide +kernel

end Container

end ObjectVM
