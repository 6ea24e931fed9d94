import KeyCodec.Hex
import KeyCodec.Bytes
import KeyCodec.Curve.Basic
import KeyCodec.Curve.Multiply
import KeyCodec.Number.Binary64
import KeyCodec.Number.HexFloat
import KeyCodec.Number.Shortest
import KeyCodec.Number.Notation
import KeyCodec.Text.Printable
import KeyCodec.Text.Quoted
import KeyCodec.Text.Template
import KeyCodec.Text.Utf8
import KeyCodec.Key.Secret
import KeyCodec.Key.Public
import KeyCodec.Value.Basic
import KeyCodec.Value.Printer
import KeyCodec.Value.Equality
import KeyCodec.Value.Fingerprint
import KeyCodec.Value.Distinct
import KeyCodec.Fault.Basic
import KeyCodec.Fault.Refusal
import KeyCodec.Fault.Declare
import KeyCodec.HexText
import KeyCodec.Value.Octets
import KeyCodec.Key.Build
import KeyCodec.Key.Access
import KeyCodec.Core
import KeyCodec.Record.Reader
import KeyCodec.Codec
import KeyCodec.Reads
import KeyCodec.Json.Basic
import KeyCodec.Json.Reader
import KeyCodec.Json.Writer
import KeyCodec.Value.Stream
import KeyCodec.Model.Report
import KeyCodec.Model.Verdict
import KeyCodec.Model.Source
import KeyCodec.Model.Schema
import KeyCodec.Model.Validate
import KeyCodec.Model.Catalog
import KeyCodec.Model.Place
import KeyCodec.Model.Dump
import KeyCodec.Session.Basic
import KeyCodec.Tour
import KeyCodec.Main
import KeyCodec.Proofs.Digits
import KeyCodec.Proofs.FieldPrime
import KeyCodec.Proofs.FixedWidth
import KeyCodec.Proofs.CurveEquation
import KeyCodec.Proofs.OrderPrime
import KeyCodec.Proofs.BaseMultiple
import KeyCodec.Proofs.Outcome
import KeyCodec.Proofs.KeyForms
import KeyCodec.Proofs.RecordMeaning
import KeyCodec.Proofs.PublicReading
import KeyCodec.Proofs.FirstOffence
import KeyCodec.Proofs.StrictReading
import KeyCodec.Proofs.RoundTrip
import KeyCodec.Proofs.HexGrammar
import KeyCodec.Proofs.PaddedDigits
import KeyCodec.Proofs.KeyTexts
import KeyCodec.Proofs.AlikeInputs
import KeyCodec.Proofs.Branches
import KeyCodec.Proofs.CodecFaults
import KeyCodec.Proofs.SecretAgreement
import KeyCodec.Proofs.PublicAgreement
import KeyCodec.Proofs.RecordFaults
import KeyCodec.Proofs.NormalForms
import KeyCodec.Proofs.KeyIdentity
import KeyCodec.Proofs.CoreFaults
import KeyCodec.Proofs.Layout
import KeyCodec.Proofs.Componentwise
import KeyCodec.Proofs.KeyByKey
import KeyCodec.Proofs.JsonReading
import KeyCodec.Proofs.Trips
import KeyCodec.Proofs.Writing
import KeyCodec.Proofs.Loading
import KeyCodec.Proofs.Rereading
import KeyCodec.Proofs.ModelRoundTrip
import KeyCodec.Proofs.WellTyped
import KeyCodec.Proofs.ReadyKeys
import KeyCodec.Proofs.SettledChecks
import KeyCodec.Proofs.TwoSources
import KeyCodec.Proofs.SpelledBytes
import KeyCodec.Proofs.KeyFormats
import KeyCodec.Proofs.NoticeTrace
import KeyCodec.Proofs.EncoderFaults
import KeyCodec.Proofs.ScalarDisclosure
import KeyCodec.Proofs.MaskedDisplay
import KeyCodec.Proofs.SizedBytes
