import Talk2Text.Format.Bytes
import Talk2Text.Format.Utf8

/-!
# WAV files

`whisper/wav.go`: the header that is written before the PCM. The sizes in it are `uint32`.

- `parseWav_wavFile`: what a reader of the file finds in it.
-/

namespace Talk2Text.Whisper

open Format

def riffChunkID : String := "RIFF"

def waveFormat : String := "WAVE"

def fmtSubchunkID : String := "fmt "

def dataSubchunkID : String := "data"

def riffChunkSizeBase : Nat := 36

def pcmAudioFormat : UInt16 := 1

def fmtSubchunkSize : UInt32 := 16

def numChannels : Nat := 1

def bitsPerSample : Nat := 16

def bytesPerSample : Nat := bitsPerSample / 8

def sampleRateHz : Nat := 16000

/-- `wavHeader`. -/
structure WavHeader where
  chunkID : List UInt8
  chunkSize : UInt32
  format : List UInt8
  subchunk1ID : List UInt8
  subchunk1Size : UInt32
  audioFormat : UInt16
  numChannels : UInt16
  sampleRate : UInt32
  byteRate : UInt32
  blockAlign : UInt16
  bitsPerSample : UInt16
  subchunk2ID : List UInt8
  subchunk2Size : UInt32
  deriving DecidableEq, Repr

/-- `binary.Write` in little-endian order. -/
def WavHeader.bytes (h : WavHeader) : List UInt8 :=
  h.chunkID ++ le 4 h.chunkSize.toNat ++ h.format ++ h.subchunk1ID ++ le 4 h.subchunk1Size.toNat ++
    le 2 h.audioFormat.toNat ++ le 2 h.numChannels.toNat ++ le 4 h.sampleRate.toNat ++ le 4 h.byteRate.toNat ++
    le 2 h.blockAlign.toNat ++ le 2 h.bitsPerSample.toNat ++ h.subchunk2ID ++ le 4 h.subchunk2Size.toNat

/-- The header that `writeWavHeader` writes. -/
def wavHeader (pcmLen : Nat) : WavHeader :=
  let dataLen := UInt32.ofNat pcmLen
  { chunkID := utf8 riffChunkID
    chunkSize := UInt32.ofNat riffChunkSizeBase + dataLen
    format := utf8 waveFormat
    subchunk1ID := utf8 fmtSubchunkID
    subchunk1Size := fmtSubchunkSize
    audioFormat := pcmAudioFormat
    numChannels := UInt16.ofNat numChannels
    sampleRate := UInt32.ofNat sampleRateHz
    byteRate := UInt32.ofNat (sampleRateHz * numChannels * bytesPerSample)
    blockAlign := UInt16.ofNat (numChannels * bytesPerSample)
    bitsPerSample := UInt16.ofNat bitsPerSample
    subchunk2ID := utf8 dataSubchunkID
    subchunk2Size := dataLen }

/-- `writeWavHeader`, to a writer. -/
def writeWavHeader {σ : Type} (write : List UInt8 → Except String σ) (pcmLen : Nat) : Except String σ :=
  if 2 ^ 32 - 1 - riffChunkSizeBase < pcmLen then .error "pcm payload too large to encode"
  else write (wavHeader pcmLen).bytes

/-- The header and the PCM. -/
def wavFile (pcm : List UInt8) : List UInt8 := (wavHeader pcm.length).bytes ++ pcm

/-! ## Reading a file -/

/-- The numbers in the header of a file and its data. -/
structure Wav where
  chunkSize : Nat
  audioFormat : Nat
  numChannels : Nat
  sampleRate : Nat
  byteRate : Nat
  blockAlign : Nat
  bitsPerSample : Nat
  dataSize : Nat
  data : List UInt8
  deriving DecidableEq, Repr

/-- A file in the layout of `wavHeader`, whose data are all there. -/
def parseWav (file : List UInt8) : Option Wav :=
  let bytes := fun i n => (file.drop i).take n
  let dataSize := readLe (bytes 40 4)
  if bytes 0 4 = utf8 "RIFF" ∧ bytes 8 8 = utf8 "WAVEfmt " ∧ readLe (bytes 16 4) = 16 ∧ bytes 36 4 = utf8 "data" ∧
      44 + dataSize ≤ file.length then
    some
      { chunkSize := readLe (bytes 4 4)
        audioFormat := readLe (bytes 20 2)
        numChannels := readLe (bytes 22 2)
        sampleRate := readLe (bytes 24 4)
        byteRate := readLe (bytes 28 4)
        blockAlign := readLe (bytes 32 2)
        bitsPerSample := readLe (bytes 34 2)
        dataSize := dataSize
        data := bytes 44 dataSize }
  else none

/-- The file says of itself and of the PCM what is so. -/
structure Wav.Exact (wav : Wav) (file pcm : List UInt8) : Prop where
  format : wav.audioFormat = 1 ∧ wav.numChannels = 1 ∧ wav.sampleRate = 16000 ∧ wav.bitsPerSample = 16
  chunkSize : wav.chunkSize + 8 = file.length
  dataSize : wav.dataSize = pcm.length
  blockAlign : wav.blockAlign = wav.numChannels * (wav.bitsPerSample / 8)
  byteRate : wav.byteRate = wav.sampleRate * wav.blockAlign
  /-- Whole samples, if the PCM is. -/
  samples : 2 ∣ pcm.length → wav.blockAlign ∣ wav.dataSize
  data : wav.data = pcm

section File

/-- What is between the two sizes. -/
def fixedBytes : List UInt8 :=
  utf8 "WAVEfmt " ++ [16, 0, 0, 0, 1, 0, 1, 0, 128, 62, 0, 0, 0, 125, 0, 0, 2, 0, 16, 0] ++ utf8 "data"

/-- A file, by its sizes and its data. -/
def layout (chunkSize dataSize : Nat) (data : List UInt8) : List UInt8 :=
  utf8 "RIFF" ++ (le 4 chunkSize ++ (fixedBytes ++ (le 4 dataSize ++ data)))

theorem wavFile_layout (pcm : List UInt8) : wavFile pcm =
    layout (wavHeader pcm.length).chunkSize.toNat (wavHeader pcm.length).subchunk2Size.toNat pcm := by
  have hfixed : fixedBytes = utf8 waveFormat ++ (utf8 fmtSubchunkID ++ (le 4 fmtSubchunkSize.toNat ++
      (le 2 pcmAudioFormat.toNat ++ (le 2 (UInt16.ofNat numChannels).toNat ++
        (le 4 (UInt32.ofNat sampleRateHz).toNat ++
          (le 4 (UInt32.ofNat (sampleRateHz * numChannels * bytesPerSample)).toNat ++
            (le 2 (UInt16.ofNat (numChannels * bytesPerSample)).toNat ++
              (le 2 (UInt16.ofNat bitsPerSample).toNat ++ utf8 dataSubchunkID)))))))) := by
    decide
  simp only [layout, hfixed, wavFile, WavHeader.bytes, wavHeader, List.append_assoc]
  rfl

theorem length_layout (c d : Nat) (data : List UInt8) : (layout c d data).length = 44 + data.length := by
  simp only [layout, List.length_append, length_le, show (utf8 "RIFF").length = 4 from rfl,
    show fixedBytes.length = 32 from rfl]
  omega

/-- **A file in this layout is read**, if its sizes fit in 32 bits and the data are as long as it says. -/
theorem parseWav_layout {c d : Nat} {data : List UInt8} (hc : c < 256 ^ 4) (hd : d < 256 ^ 4) (hlen : data.length = d) :
    parseWav (layout c d data) = some ⟨c, 1, 1, 16000, 32000, 2, 16, d, data⟩ := by
  have hchunk : ((layout c d data).drop 4).take 4 = le 4 c := rfl
  have hsize : ((layout c d data).drop 40).take 4 = le 4 d := rfl
  have hdata : ((layout c d data).drop 44).take d = data := List.take_of_length_le (Nat.le_of_eq hlen)
  have hall : 44 + d ≤ (layout c d data).length := by rw [length_layout, hlen]
  have hfmt : readLe (((layout c d data).drop 16).take 4) = 16 := (by decide : readLe [16, 0, 0, 0] = 16)
  have hone : readLe [1, 0] = 1 := by decide
  have hformat : readLe (((layout c d data).drop 20).take 2) = 1 := hone
  have hchannels : readLe (((layout c d data).drop 22).take 2) = 1 := hone
  have hrate : readLe (((layout c d data).drop 24).take 4) = 16000 := (by decide : readLe [128, 62, 0, 0] = 16000)
  have hbyte : readLe (((layout c d data).drop 28).take 4) = 32000 := (by decide : readLe [0, 125, 0, 0] = 32000)
  have halign : readLe (((layout c d data).drop 32).take 2) = 2 := (by decide : readLe [2, 0] = 2)
  have hbits : readLe (((layout c d data).drop 34).take 2) = 16 := (by decide : readLe [16, 0] = 16)
  simp only [parseWav, hchunk, hsize, readLe_le hc, readLe_le hd, hdata, hfmt, hformat, hchannels, hrate, hbyte,
    halign, hbits]
  exact if_pos ⟨rfl, rfl, trivial, rfl, hall⟩

theorem length_bytes_wavHeader (n : Nat) : (wavHeader n).bytes.length = 44 := by
  have hriff : (utf8 riffChunkID).length = 4 := by decide
  have hwave : (utf8 waveFormat).length = 4 := by decide
  have hfmt : (utf8 fmtSubchunkID).length = 4 := by decide
  have hdata : (utf8 dataSubchunkID).length = 4 := by decide
  simp only [wavHeader, WavHeader.bytes, List.length_append, length_le, hriff, hwave, hfmt, hdata]

variable {pcm : List UInt8}

/-- The sizes do not wrap. -/
theorem toNat_sizes (h : pcm.length ≤ 2 ^ 32 - 1 - riffChunkSizeBase) :
    (wavHeader pcm.length).chunkSize.toNat = 36 + pcm.length ∧
      (wavHeader pcm.length).subchunk2Size.toNat = pcm.length := by
  simp only [riffChunkSizeBase] at h
  simp only [wavHeader, riffChunkSizeBase, UInt32.toNat_add, UInt32.toNat_ofNat']
  omega

/-- **What a reader finds in the file** is exact. -/
theorem parseWav_wavFile (h : pcm.length ≤ 2 ^ 32 - 1 - riffChunkSizeBase) :
    ∃ wav, parseWav (wavFile pcm) = some wav ∧ wav.Exact (wavFile pcm) pcm := by
  obtain ⟨hchunk, hsize⟩ := toNat_sizes h
  simp only [riffChunkSizeBase] at h
  rw [wavFile_layout, hchunk, hsize]
  have hlen : 36 + pcm.length + 8 = (layout (36 + pcm.length) pcm.length pcm).length := by
    rw [length_layout]
    omega
  have halign : 2 = 1 * (16 / 8) := by decide
  have hrate : 32000 = 16000 * 2 := by decide
  exact ⟨_, parseWav_layout (by omega) (by omega) rfl, ⟨rfl, rfl, rfl, rfl⟩, hlen, rfl, halign, hrate, id, rfl⟩

end File

end Talk2Text.Whisper
