import StatProse.Main
import StatProse.Proofs.FirstEntries
import StatProse.Proofs.RepeatedId
import StatProse.StatIndex
import StatProse.Proofs.ByteOrder
import StatProse.Proofs.NumberText
import StatProse.Proofs.TextCount
import StatProse.Proofs.Validation
import StatProse.Proofs.Coverage
import StatProse.Proofs.EntryDocument
import StatProse.Proofs.Directory
import StatProse.Proofs.Assembly
import StatProse.Proofs.ContentParts
import StatProse.Proofs.Numbering
import StatProse.Proofs.UnknownStats
import StatProse.Proofs.AllOrNothing
import StatProse.Proofs.StatOrder
import StatProse.Proofs.Markers
import StatProse.Proofs.FixedDigits
import StatProse.Proofs.FixedRounding
import StatProse.Proofs.TieRounding
import StatProse.Proofs.HiddenSlots
import StatProse.Proofs.SpanSizes
import StatProse.Proofs.EditedEntries
import StatProse.Proofs.UnknownTransforms
import StatProse.Proofs.ShadowedRules
import StatProse.Proofs.FirstViolation
import StatProse.Proofs.TableOrder
import StatProse.Proofs.Signatures
import StatProse.Proofs.TokenReading
import StatProse.Proofs.TableParts
