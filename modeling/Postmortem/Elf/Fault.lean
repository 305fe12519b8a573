/-
Postmortem/Elf/Fault.lean

What can be wrong with an ELF file.

One constructor for each cause, and the sentence people read in one function.
-/

namespace Postmortem

inductive ElfFault where
  /-- Fewer bytes than it takes to recognise a file. -/
  | unreadableMagic
  | unknownMagic
  /-- The mark of an MS-DOS program, with nothing this library reads behind it. -/
  | unknownDosProgram
  /-- A known kind of file that is no program. -/
  | unsupportedFormat
  | truncatedHeader
  | unsupportedHeader
  | programEntrySize
  | programTable
  /-- The number of program headers stands in a section header, and there are none. -/
  | programCount
  | sectionEntrySize
  /-- The first section header, which holds the large counts, is out of the file. -/
  | firstSection
  | sectionTable
  | noSectionNames
  | sectionNames
  | sectionNamesSize
  | symbolTable
  | sectionIndex
  | notStringSection
  | stringSectionSize
  | extendedIndexes
  | relocationTarget
  | relocatedRelocations
  | noteSegment
  | noteAlignment
  | noteHeader
  | noteName
  | noteDescriptor
  | notCore
  | machine (number : Nat)
  /-- The note of a thread is too short. -/
  | threadNote (index : Nat)
  /-- The note of mapped files is too short for what it announces. -/
  | fileNote
  | compressedSectionType
  | compressedHeader
  | compressedSize
  | compressionKind
  /-- A section that is marked by its name as compressed has no place in the file. -/
  | olderSectionType
  | olderTooShort
  | olderHeader
  | sectionData
  | expandedTooLarge
  | corruptZlib
  | corruptZstd
  /-- The data expands to fewer or more bytes than its header tells. -/
  | expandedSize
  deriving DecidableEq

namespace ElfFault

/-- The sentence that tells the fault. -/
def message : ElfFault → String
  | unreadableMagic => "Could not read file magic"
  | unknownMagic => "Unknown file magic"
  | unknownDosProgram => "Unknown MS-DOS file"
  | unsupportedFormat => "Unsupported file format"
  | truncatedHeader => "Invalid ELF header size or alignment"
  | unsupportedHeader => "Unsupported ELF header"
  | programEntrySize => "Invalid ELF program header entry size"
  | programTable => "Invalid ELF program header size or alignment"
  | programCount => "Missing ELF section headers for e_phnum overflow"
  | sectionEntrySize => "Invalid ELF section header entry size"
  | firstSection => "Invalid ELF section header offset or size"
  | sectionTable => "Invalid ELF section header offset/size/alignment"
  | noSectionNames => "Missing ELF e_shstrndx"
  | sectionNames => "Invalid ELF e_shstrndx"
  | sectionNamesSize => "Invalid ELF shstrtab size"
  | symbolTable => "Invalid ELF symbol table data"
  | sectionIndex => "Invalid ELF section index"
  | notStringSection => "Invalid ELF string section type"
  | stringSectionSize => "Invalid ELF string section offset or size"
  | extendedIndexes => "Invalid ELF symtab_shndx data"
  | relocationTarget => "Invalid ELF sh_info for relocation section"
  | relocatedRelocations => "Unsupported ELF sh_info for relocation section"
  | noteSegment => "Invalid ELF note segment offset or size"
  | noteAlignment => "Invalid ELF note alignment"
  | noteHeader => "ELF note is too short"
  | noteName => "Invalid ELF note namesz"
  | noteDescriptor => "Invalid ELF note descsz"
  | notCore => "not a core file"
  | machine number => s!"unsupported machine {number}"
  | threadNote index => s!"truncated NT_PRSTATUS note for thread {index}"
  | fileNote => "truncated NT_FILE note"
  | compressedSectionType => "Invalid ELF compressed section type"
  | compressedHeader => "Invalid ELF compressed section offset"
  | compressedSize => "Invalid ELF compressed section size"
  | compressionKind => "Unsupported ELF compression type"
  | olderSectionType => "Invalid ELF GNU compressed section type"
  | olderTooShort => "GNU compressed section is too short"
  | olderHeader => "Invalid GNU compressed section header"
  | sectionData => "Invalid compressed data size or offset"
  | expandedTooLarge => "Uncompressed data allocation failed"
  | corruptZlib => "Invalid zlib compressed data"
  | corruptZstd => "Invalid zstd compressed data"
  | expandedSize => "Uncompressed data size does not match compression header"

end ElfFault

end Postmortem
