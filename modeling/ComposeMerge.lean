import ComposeMerge.Main
import ComposeMerge.Proofs.AtomicLoad
import ComposeMerge.Proofs.EnvFileOrigin
import ComposeMerge.Proofs.Independence
import ComposeMerge.Proofs.Override
import ComposeMerge.Proofs.RawForm
import ComposeMerge.Proofs.Staging
import ComposeMerge.Proofs.StartOrder
import ComposeMerge.Proofs.Widening
import ComposeMerge.Summary
import ComposeMerge.Proofs.Settled
import ComposeMerge.Proofs.EmptyOverride
import ComposeMerge.Proofs.Validated
import ComposeMerge.Proofs.PrintedBack
import ComposeMerge.Proofs.ReferencedVariables
import ComposeMerge.Proofs.InterpolatedText
import ComposeMerge.Proofs.EnvFilePrecedence
import ComposeMerge.Proofs.EnvironmentReaders
import ComposeMerge.Proofs.Layers
import ComposeMerge.Proofs.UndefinedVariables
import ComposeMerge.Proofs.LegacyReading
import ComposeMerge.Proofs.LegacyOverride
import ComposeMerge.Proofs.CheckedFields
import ComposeMerge.Proofs.InheritanceShorthand
import ComposeMerge.Proofs.UnsupportedVersion
import ComposeMerge.Proofs.CommandWords
import ComposeMerge.Proofs.IntegerTexts
import ComposeMerge.Proofs.EnvironmentText
import ComposeMerge.Proofs.VersionText
import ComposeMerge.Proofs.TreeRoundTrip
import ComposeMerge.Proofs.ManifestShape
import ComposeMerge.Proofs.ServiceNumbers
