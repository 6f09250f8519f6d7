import ValidationSuite.Vmtest.Util

/-!
# The description of a domain

`build_domain_xml` of `vmtest/src/virt.cpp`, with its values between single quotes, and what a
reader of XML finds in it.
-/

namespace Vmtest

open ByteString

def buildDomainXml (name : ByteString) (vcpus memMib : ℕ) (diskPath diskFormat : ByteString) :
    ByteString :=
  lit "<domain type='kvm'>\n" ++
  lit "  <name>" ++ xmlEscape name ++ lit "</name>\n" ++
  lit "  <memory unit='MiB'>" ++ ofNat memMib ++ lit "</memory>\n" ++
  lit "  <vcpu>" ++ ofNat vcpus ++ lit "</vcpu>\n" ++
  lit "  <os>\n" ++
  lit "    <type arch='x86_64' machine='q35'>hvm</type>\n" ++
  lit "    <boot dev='hd'/>\n" ++
  lit "  </os>\n" ++
  lit "  <features><acpi/><apic/></features>\n" ++
  lit "  <cpu mode='host-passthrough'/>\n" ++
  lit "  <clock offset='utc'/>\n" ++
  lit "  <devices>\n" ++
  lit "    <disk type='file' device='disk'>\n" ++
  lit "      <driver name='qemu' type='" ++ xmlEscape diskFormat ++ lit "'/>\n" ++
  lit "      <source file='" ++ xmlEscape diskPath ++ lit "'/>\n" ++
  lit "      <target dev='vda' bus='virtio'/>\n" ++
  lit "    </disk>\n" ++
  lit "    <serial type='pty'><target port='0'/></serial>\n" ++
  lit "    <console type='pty'><target type='serial' port='0'/></console>\n" ++
  lit "    <channel type='unix'>\n" ++
  lit "      <target type='virtio' name='org.qemu.guest_agent.0'/>\n" ++
  lit "    </channel>\n" ++
  lit "    <memballoon model='virtio'/>\n" ++
  lit "  </devices>\n" ++
  lit "</domain>\n"

/-! ### Its pieces -/

def opening (n : String) (attributes : List (String × String) := []) : Xml.Piece :=
  .tag ⟨.opening, lit n, attributes.map fun a => (lit a.1, lit a.2)⟩

def closing (n : String) : Xml.Piece := .tag ⟨.closing, lit n, []⟩

def single (n : String) (attributes : List (String × String) := []) : Xml.Piece :=
  .tag ⟨.empty, lit n, attributes.map fun a => (lit a.1, lit a.2)⟩

def text (s : String) : Xml.Piece := .text (lit s)

def driverTag (diskFormat : ByteString) : Xml.Tag :=
  ⟨.empty, lit "driver", [(lit "name", lit "qemu"), (lit "type", xmlEscape diskFormat)]⟩

def sourceTag (diskPath : ByteString) : Xml.Tag :=
  ⟨.empty, lit "source", [(lit "file", xmlEscape diskPath)]⟩

def nameHead : List Xml.Piece :=
  [opening "domain" [("type", "kvm")], text "\n  ", opening "name"]

def memoryHead : List Xml.Piece :=
  [closing "name", text "\n  ", opening "memory" [("unit", "MiB")]]

def vcpuHead : List Xml.Piece := [closing "memory", text "\n  ", opening "vcpu"]

/-- From the number of CPUs to the driver of the disk. -/
def domainMachine : List Xml.Piece :=
  [closing "vcpu", text "\n  ", opening "os", text "\n    ",
    opening "type" [("arch", "x86_64"), ("machine", "q35")], text "hvm", closing "type",
    text "\n    ", single "boot" [("dev", "hd")], text "\n  ", closing "os", text "\n  ",
    opening "features", single "acpi", single "apic", closing "features", text "\n  ",
    single "cpu" [("mode", "host-passthrough")], text "\n  ",
    single "clock" [("offset", "utc")], text "\n  ", opening "devices", text "\n    ",
    opening "disk" [("type", "file"), ("device", "disk")], text "\n      "]

/-- What comes after the source of the disk. -/
def domainDevices : List Xml.Piece :=
  [text "      ", single "target" [("dev", "vda"), ("bus", "virtio")], text "\n    ",
    closing "disk", text "\n    ", opening "serial" [("type", "pty")],
    single "target" [("port", "0")], closing "serial", text "\n    ",
    opening "console" [("type", "pty")], single "target" [("type", "serial"), ("port", "0")],
    closing "console", text "\n    ", opening "channel" [("type", "unix")], text "\n      ",
    single "target" [("type", "virtio"), ("name", "org.qemu.guest_agent.0")], text "\n    ",
    closing "channel", text "\n    ", single "memballoon" [("model", "virtio")], text "\n  ",
    closing "devices", text "\n", closing "domain", text "\n"]

/-- The bytes of a document in pieces. -/
def writeSingle (pieces : List Xml.Piece) : ByteString :=
  pieces.flatMap (Xml.Piece.renderWith '\''.toNat.toUInt8)

lemma writeSingle_append (a b : List Xml.Piece) :
    writeSingle (a ++ b) = writeSingle a ++ writeSingle b := List.flatMap_append

lemma writeSingle_nameHead :
    writeSingle nameHead = lit "<domain type='kvm'>\n" ++ lit "  <name>" := by decide +kernel

lemma writeSingle_memoryHead :
    writeSingle memoryHead = lit "</name>\n" ++ lit "  <memory unit='MiB'>" := by decide +kernel

lemma writeSingle_vcpuHead : writeSingle vcpuHead = lit "</memory>\n" ++ lit "  <vcpu>" := by
  decide +kernel

lemma writeSingle_domainMachine : writeSingle domainMachine =
    lit "</vcpu>\n" ++ (lit "  <os>\n" ++
    (lit "    <type arch='x86_64' machine='q35'>hvm</type>\n" ++
    (lit "    <boot dev='hd'/>\n" ++ (lit "  </os>\n" ++
    (lit "  <features><acpi/><apic/></features>\n" ++
    (lit "  <cpu mode='host-passthrough'/>\n" ++ (lit "  <clock offset='utc'/>\n" ++
    (lit "  <devices>\n" ++ (lit "    <disk type='file' device='disk'>\n" ++
    lit "      "))))))))) := by
  decide +kernel

lemma writeSingle_domainDevices : writeSingle domainDevices =
    lit "      <target dev='vda' bus='virtio'/>\n" ++ (lit "    </disk>\n" ++
    (lit "    <serial type='pty'><target port='0'/></serial>\n" ++
    (lit "    <console type='pty'><target type='serial' port='0'/></console>\n" ++
    (lit "    <channel type='unix'>\n" ++
    (lit "      <target type='virtio' name='org.qemu.guest_agent.0'/>\n" ++
    (lit "    </channel>\n" ++ (lit "    <memballoon model='virtio'/>\n" ++
    (lit "  </devices>\n" ++ lit "</domain>\n")))))))) := by
  decide +kernel

lemma writeSingle_text (s : ByteString) : writeSingle [.text s] = s := List.append_nil s

section Domain

variable (name : ByteString) (vcpus memMib : ℕ) (diskPath diskFormat : ByteString)

/-- The driver and the source of the disk. -/
def diskPieces : List Xml.Piece :=
  [.tag (driverTag diskFormat), text "\n      ", .tag (sourceTag diskPath), text "\n"]

/-- What comes after the text of the name. -/
def domainRest : List Xml.Piece :=
  memoryHead ++ [.text (ofNat memMib)] ++ vcpuHead ++ [.text (ofNat vcpus)] ++ domainMachine ++
    diskPieces diskPath diskFormat ++ domainDevices

def domainPieces : List Xml.Piece :=
  nameHead ++ [.text (xmlEscape name)] ++ domainRest vcpus memMib diskPath diskFormat

lemma writeSingle_diskPieces : lit "      " ++ writeSingle (diskPieces diskPath diskFormat) =
    lit "      <driver name='qemu' type='" ++ xmlEscape diskFormat ++ lit "'/>\n" ++
      lit "      <source file='" ++ xmlEscape diskPath ++ lit "'/>\n" := by
  simp [diskPieces, writeSingle, driverTag, sourceTag, text, Xml.Piece.renderWith,
    Xml.Tag.renderWith, Xml.renderAttributeWith, lit]

lemma buildDomainXml_eq : buildDomainXml name vcpus memMib diskPath diskFormat =
    writeSingle (domainPieces name vcpus memMib diskPath diskFormat) := by
  have hdisk (s : ByteString) :
      lit "      " ++ (writeSingle (diskPieces diskPath diskFormat) ++ s) =
        lit "      <driver name='qemu' type='" ++ (xmlEscape diskFormat ++ (lit "'/>\n" ++
          (lit "      <source file='" ++ (xmlEscape diskPath ++ (lit "'/>\n" ++ s))))) := by
    rw [← List.append_assoc, writeSingle_diskPieces]
    simp only [List.append_assoc]
  unfold buildDomainXml
  simp only [domainPieces, domainRest, writeSingle_append, writeSingle_text, writeSingle_nameHead,
    writeSingle_memoryHead, writeSingle_vcpuHead, writeSingle_domainMachine,
    writeSingle_domainDevices, List.append_assoc, hdisk]

lemma wellFormed_diskPieces :
    ∀ p ∈ diskPieces diskPath diskFormat, p.WellFormedWith '\''.toNat.toUInt8 := by
  have hdriver : (driverTag diskFormat).WellFormedWith '\''.toNat.toUInt8 :=
    ⟨show Xml.isName (lit "driver") = true by decide, by
      simp only [driverTag, List.forall_mem_cons]
      exact ⟨by decide, by decide, nofun⟩, by
      simp only [driverTag, List.forall_mem_cons]
      exact ⟨by decide, quoted_xmlEscape (.inr rfl) _, nofun⟩, nofun⟩
  have hsource : (sourceTag diskPath).WellFormedWith '\''.toNat.toUInt8 :=
    ⟨show Xml.isName (lit "source") = true by decide, by
      simp only [sourceTag, List.forall_mem_cons]
      exact ⟨by decide, nofun⟩, by
      simp only [sourceTag, List.forall_mem_cons]
      exact ⟨quoted_xmlEscape (.inr rfl) _, nofun⟩, nofun⟩
  simp only [diskPieces, List.forall_mem_cons]
  exact ⟨hdriver, by decide, hsource, by decide, nofun⟩

lemma wellFormed_domainPieces : ∀ p ∈ domainPieces name vcpus memMib diskPath diskFormat,
    p.WellFormedWith '\''.toNat.toUInt8 := by
  have hname : (Xml.Piece.text (xmlEscape name)).WellFormedWith '\''.toNat.toUInt8 := fun c hc =>
    (quoted_xmlEscape (.inr rfl) name c hc).1
  have hnumber (n : ℕ) : (Xml.Piece.text (ofNat n)).WellFormedWith '\''.toNat.toUInt8 := by
    rintro c hc rfl
    exact absurd (isDigit_of_mem_ofNat hc) (by decide)
  have hfixed : ∀ p ∈ nameHead ++ memoryHead ++ vcpuHead ++ domainMachine ++ domainDevices,
      p.WellFormedWith '\''.toNat.toUInt8 := by decide +kernel
  simp only [List.forall_mem_append] at hfixed
  simp only [domainPieces, domainRest, List.forall_mem_append, List.forall_mem_singleton]
  exact ⟨⟨hfixed.1.1.1.1, hname⟩, ⟨⟨⟨⟨⟨hfixed.1.1.1.2, hnumber memMib⟩, hfixed.1.1.2⟩,
    hnumber vcpus⟩, hfixed.1.2⟩, wellFormed_diskPieces diskPath diskFormat⟩, hfixed.2⟩

/-- The tag without the values of its attributes. -/
def shape (t : Xml.Tag) : Xml.Kind × ByteString × List ByteString :=
  (t.kind, t.name, t.attributes.map Prod.fst)

lemma shape_domainPieces :
    ((domainPieces name vcpus memMib diskPath diskFormat).flatMap Xml.Piece.tags).map shape =
      ((domainPieces [] 0 0 [] []).flatMap Xml.Piece.tags).map shape := rfl

/-- The name is the text of the only element called so. -/
lemma elements_domainPieces :
    Xml.elements (lit "name")
        ((domainPieces name vcpus memMib diskPath diskFormat).flatMap Xml.Piece.tokens) =
      [(⟨.opening, lit "name", []⟩, xmlEscape name)] := by
  have hdomain : Xml.Tag.starts (lit "name")
      ⟨.opening, lit "domain", [(lit "type", lit "kvm")]⟩ = false := rfl
  have hname : Xml.Tag.starts (lit "name") ⟨.opening, lit "name", []⟩ = true := rfl
  have hrest : ((domainRest vcpus memMib diskPath diskFormat).flatMap Xml.Piece.tags).filter
      (Xml.Tag.starts (lit "name")) = [] := rfl
  have hhead : nameHead.flatMap Xml.Piece.tokens =
      [.tag ⟨.opening, lit "domain", [(lit "type", lit "kvm")]⟩] ++ (lit "\n  ").map .char ++
        [.tag ⟨.opening, lit "name", []⟩] := rfl
  have hnone := Xml.elements_pieces_append
    (fun t ht => eq_false_of_ne_true (List.filter_eq_nil_iff.mp hrest t ht)) []
  have htext : Xml.leadingText
      ((domainRest vcpus memMib diskPath diskFormat).flatMap Xml.Piece.tokens) = [] := rfl
  rw [List.append_nil, Xml.elements_nil] at hnone
  rw [domainPieces, List.flatMap_append, List.flatMap_append, hhead, List.flatMap_singleton,
    Xml.Piece.tokens]
  simp [hdomain, hname, hnone, htext]

end Domain

/-- Whatever the bytes of the name, the path and the format: a reader of the document finds the same
tags with the same attributes, and behind three of its strings the name, the format and the path. -/
theorem domain_xml_sealed :
    ∃ tags : List (Xml.Kind × ByteString × List ByteString),
      ∀ name vcpus memMib diskPath diskFormat, ∃ tokens,
        Xml.scan (buildDomainXml name vcpus memMib diskPath diskFormat) = some tokens ∧
        (Xml.tags tokens).map shape = tags ∧
        (Xml.elements (lit "name") tokens).map (fun e => Xml.decode e.2) = [some name] ∧
        ((Xml.tags tokens).filter (Xml.Tag.starts (lit "driver"))).map
          (fun t => t.attribute? (lit "type")) = [some diskFormat] ∧
        ((Xml.tags tokens).filter (Xml.Tag.starts (lit "source"))).map
          (fun t => t.attribute? (lit "file")) = [some diskPath] := by
  refine ⟨((domainPieces [] 0 0 [] []).flatMap Xml.Piece.tags).map shape,
    fun name vcpus memMib diskPath diskFormat =>
      ⟨(domainPieces name vcpus memMib diskPath diskFormat).flatMap Xml.Piece.tokens,
        ?_, ?_, ?_, ?_, ?_⟩⟩
  · rw [buildDomainXml_eq]
    exact Xml.scan_pieces (.inr rfl)
      (wellFormed_domainPieces name vcpus memMib diskPath diskFormat)
  · rw [Xml.tags_pieces]
    exact shape_domainPieces name vcpus memMib diskPath diskFormat
  · rw [elements_domainPieces, List.map_singleton, decode_xmlEscape]
  · have hdriver : ((domainPieces name vcpus memMib diskPath diskFormat).flatMap
        Xml.Piece.tags).filter (Xml.Tag.starts (lit "driver")) = [driverTag diskFormat] := rfl
    rw [Xml.tags_pieces, hdriver]
    exact congrArg (fun v => [v]) (decode_xmlEscape diskFormat)
  · have hsource : ((domainPieces name vcpus memMib diskPath diskFormat).flatMap
        Xml.Piece.tags).filter (Xml.Tag.starts (lit "source")) = [sourceTag diskPath] := rfl
    rw [Xml.tags_pieces, hsource]
    exact congrArg (fun v => [v]) (decode_xmlEscape diskPath)

end Vmtest
