import TreeSchema.Files.Table
import TreeSchema.Main
import TreeSchema.Session
import TreeSchema.Proofs.Conformance
import TreeSchema.Proofs.Exactness
import TreeSchema.Proofs.Isolation
import TreeSchema.Proofs.Shape
import TreeSchema.Proofs.Totality
import TreeSchema.Proofs.Agreement
import TreeSchema.Proofs.ByPosition
import TreeSchema.Proofs.Merge
import TreeSchema.Proofs.Composition
import TreeSchema.Proofs.Relaxation
import TreeSchema.Proofs.Spelling
import TreeSchema.Proofs.Place
import TreeSchema.Proofs.Placement
import TreeSchema.Proofs.Literal
import TreeSchema.Proofs.Offences
import TreeSchema.Proofs.Inline
import TreeSchema.Proofs.Outcome
import TreeSchema.Proofs.Breakdowns
import TreeSchema.Proofs.Export
import TreeSchema.Proofs.Reordering
import TreeSchema.Proofs.Segments
import TreeSchema.Proofs.Instance
import TreeSchema.Proofs.Writing
import TreeSchema.Proofs.Failure
import TreeSchema.Proofs.Utf8
import TreeSchema.Proofs.Source
import TreeSchema.Proofs.Computation
import TreeSchema.Proofs.JsonNumerals
import TreeSchema.Proofs.SchemaFiles
import TreeSchema.Proofs.YamlTokens
import TreeSchema.Proofs.YamlGrammar
import TreeSchema.Proofs.YamlReading
