import ChipAtlas.Main
import ChipAtlas.Proofs.BitTable
import ChipAtlas.Proofs.Bits.Export
import ChipAtlas.Proofs.Cache.Database
import ChipAtlas.Proofs.Cipher.Canonical
import ChipAtlas.Proofs.Cipher.Cursor
import ChipAtlas.Proofs.CommandLine.CatalogFiles
import ChipAtlas.Proofs.CommandLine.FailedJob
import ChipAtlas.Proofs.CommandLine.SeveralInputs
import ChipAtlas.Proofs.Consumption
import ChipAtlas.Proofs.DumpSink
import ChipAtlas.Proofs.FailedCalls
import ChipAtlas.Proofs.Files.Commit
import ChipAtlas.Proofs.Fuses.Columns
import ChipAtlas.Proofs.Fuses.Picture
import ChipAtlas.Proofs.InBounds
import ChipAtlas.Proofs.LineByLine
import ChipAtlas.Proofs.LineSource
import ChipAtlas.Proofs.Lockstep
import ChipAtlas.Proofs.Respacing
import ChipAtlas.Proofs.RoundTrip
import ChipAtlas.Proofs.Script.Requests
import ChipAtlas.Proofs.Structure
import ChipAtlas.Proofs.TileTable
import ChipAtlas.Proofs.Tiles.Export
import ChipAtlas.Proofs.Tiles.PlacementOrder
import ChipAtlas.Proofs.Trailer
import ChipAtlas.Writing
