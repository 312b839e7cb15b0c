import PromptCanvas.Proofs.Image.Base64
import PromptCanvas.Proofs.Image.DataUrl
import PromptCanvas.Service.Session

/-!
# The two forms of an upload

An image is uploaded as the bare base64 text of its file or as a data URL around that.  The bare
text is decoded strictly and the payload of a URL leniently, but for a text that strict decoding
accepts both come to the bytes that it stands for, and all that is stored is made of these.  Nothing
is asked of what recognises an image, so all this holds of any recogniser that looks at the bytes
alone.
-/

namespace PromptCanvas
namespace ImageRef

/-- A text that strict decoding accepts has no colon, so it is not taken for a URL. -/
theorem isPrefixOf_eq_false_of_decode {text : String} {bytes : List UInt8}
    (h : Base64.decode true text = .ok bytes) : scheme.isPrefixOf text.toList = false := by
  rw [← Bool.not_eq_true, List.isPrefixOf_iff_prefix]
  intro hstarts
  have hcolon : ':' ∈ text.toList := hstarts.mem (by decide)
  have halphabet := Base64.mem_alphabet_of_decodeFrom (Base64.decodeFrom_of_decode h) ':' hcolon
  exact absurd halphabet (by decide)

section Forms

variable {text : String} {bytes : List UInt8} (h : Base64.decode true text = .ok bytes)
include h

theorem ofUploadBy_bare (recognise : Recogniser) :
    ofUploadBy recognise text = ofFile recognise bytes := by
  rw [ofUploadBy, isPrefixOf_eq_false_of_decode h, if_neg Bool.false_ne_true, h]

theorem ofUploadBy_dataUrl (recognise : Recogniser) {url mime : String}
    (hurl : IsDataUrl url mime text) : ofUploadBy recognise url = ofFile recognise bytes := by
  have hbytes : (ImageRef.mk text (orDefault mime)).toBytes = .ok bytes := Base64.decode_lenient h
  rw [ofUploadBy, hurl.split.isPrefixOf, if_pos rfl, hurl.ofDataUrl_eq]
  simp only [hbytes]

/-- A text that strict decoding accepts has the same outcome bare and in a data URL, whatever media
type the URL gives.  Where the bytes are recognised, the reference decodes to these bytes, holds
their canonical base64, which strict decoding accepts too, and has the media type that was found in
them.  A session answers both forms alike, whatever recogniser it has. -/
theorem upload_forms_agree (recognise : Recogniser) :
    (∀ mime : String, ',' ∉ mime.toList →
      ofUploadBy recognise ("data:" ++ mime ++ ";base64," ++ text) = ofUploadBy recognise text) ∧
    (∀ r, ofUploadBy recognise text = .ok r →
      r.toBytes = .ok bytes ∧ r.data = Base64.encode bytes ∧
        Base64.decode true r.data = .ok bytes ∧
        ∃ mime, recognise bytes = .ok mime ∧ r.mimeType = mime.getD "application/octet-stream") ∧
    ∀ (s : Session) (label : Option String) (mime : String), ',' ∉ mime.toList →
      s.upload ⟨"data:" ++ mime ++ ";base64," ++ text, label⟩ = s.upload ⟨text, label⟩ := by
  have hsame (recognise : Recogniser) (mime : String) (hmime : ',' ∉ mime.toList) :
      ofUploadBy recognise ("data:" ++ mime ++ ";base64," ++ text) = ofUploadBy recognise text :=
    (ofUploadBy_dataUrl h recognise ⟨hmime, rfl⟩).trans (ofUploadBy_bare h recognise).symm
  refine ⟨hsame recognise, fun r hr => ?_, fun s label mime hmime => ?_⟩
  · rw [ofUploadBy_bare h, ofFile] at hr
    obtain ⟨mime, hfound, rfl⟩ := map_eq_ok.mp hr
    exact ⟨Base64.decode_encode false bytes, rfl, Base64.decode_encode true bytes, mime, hfound,
      rfl⟩
  · unfold Session.upload
    dsimp only
    rw [hsame s.recognise mime hmime]

end Forms

/-- The file of a picture that is one point. -/
def onePoint : List UInt8 := [
  0x47, 0x49, 0x46, 0x38, 0x39, 0x61, 0x01, 0x00, 0x01, 0x00, 0x80, 0x00, 0x00, 0xff, 0xff, 0xff,
  0x00, 0x00, 0x00, 0x2c, 0x00, 0x00, 0x00, 0x00, 0x01, 0x00, 0x01, 0x00, 0x00, 0x02, 0x02, 0x44,
  0x01, 0x00, 0x3b]

/-- The last character before the padding holds two bits more than the bytes of the file. -/
theorem upload_forms_agree_loose :
    let text := "R0lGODlhAQABAIAAAP///wAAACwAAAAAAQABAAACAkQBADt="
    let url := "data:image/png;base64,R0lGODlhAQABAIAAAP///wAAACwAAAAAAQABAAACAkQBADt="
    Base64.decode true text = .ok onePoint ∧ ',' ∉ "image/png".toList ∧
      ofUploadBy signatures url = ofUploadBy signatures text ∧
      ∃ r, ofUploadBy signatures text = .ok r ∧
        r.data = "R0lGODlhAQABAIAAAP///wAAACwAAAAAAQABAAACAkQBADs=" ∧
        r.mimeType = "image/gif" := by
  intro text url
  have h : Base64.decode true text = .ok onePoint := by
    have hsome : (Base64.decode true text).toOption = some onePoint := by decide +kernel
    cases hread : Base64.decode true text with
    | error f => rw [hread] at hsome; cases hsome
    | ok b => rw [hread] at hsome; cases hsome; rfl
  have hmime : ',' ∉ "image/png".toList := by decide
  obtain ⟨hsame, hstored, -⟩ := upload_forms_agree h signatures
  have hr : ofUploadBy signatures text = .ok ⟨Base64.encode onePoint, "image/gif"⟩ :=
    ofUploadBy_bare h signatures
  obtain ⟨-, hdata, -⟩ := hstored _ hr
  have hcanonical : Base64.encode onePoint =
      "R0lGODlhAQABAIAAAP///wAAACwAAAAAAQABAAACAkQBADs=" := by decide +kernel
  exact ⟨h, hmime, hsame "image/png" hmime, _, hr, hdata.trans hcanonical, rfl⟩

end ImageRef
end PromptCanvas
